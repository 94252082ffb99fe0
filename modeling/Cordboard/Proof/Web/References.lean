import Cordboard.Construction.Web.Expansions
import Cordboard.Proof.Web.Layering

namespace Cordboard.Presentation
open Data Archive

/-- The graph is reached from the structure by references within the document. -/
inductive Reaches (documentGraphs : List PublishedGraph) (structure_ : Structure) : PublishedGraph → Prop
  | direct {node : Node} {graph : PublishedGraph} (member : node ∈ structure_.nodes)
      (names : node.subgraphId = some graph.id) (published : graph ∈ documentGraphs) :
      Reaches documentGraphs structure_ graph
  | further {node : Node} {above graph : PublishedGraph} (reached : Reaches documentGraphs structure_ above)
      (member : node ∈ above.structure_.nodes) (names : node.subgraphId = some graph.id)
      (published : graph ∈ documentGraphs) : Reaches documentGraphs structure_ graph

/-- The structures that the page may show are the selected one and those that were found. -/
def Shown (structure_ : Structure) (found : Dict String Structure) (shown : Structure) : Prop :=
  shown = structure_ ∨ ∃ address, found.get? address = some shown

/-- The graph IDs without a structure and the structures on the stack bound the rest of the loop. -/
structure Following (documentGraphs : List PublishedGraph) (structure_ : Structure) (fuel : Nat)
    (found : Dict String Structure) (pending : List Structure) : Prop where
  sound : ∀ address child, found.get? address = some child → Reaches documentGraphs structure_ ⟨address, child⟩
  waits : ∀ shown ∈ pending, Shown structure_ found shown
  closed : ∀ shown, Shown structure_ found shown → shown ∉ pending → ∀ node ∈ shown.nodes, ∀ graph ∈ documentGraphs,
    node.subgraphId = some graph.id → graph.id ∈ found.keys
  room : ((documentGraphs.map PublishedGraph.id).toFinset \ found.keys.toFinset).card + pending.length ≤ fuel

section
variable {documentGraphs : List PublishedGraph} {structure_ shown : Structure} {found : Dict String Structure}
  {pending : List Structure} {fuel : Nat} {nodes : List Node} {node : Node} {address : String} {child : Structure}

theorem Reaches.published {graph : PublishedGraph} (reached : Reaches documentGraphs structure_ graph) :
    graph ∈ documentGraphs := by
  cases reached with
  | direct _ _ published => exact published
  | further _ _ _ published => exact published

theorem get?_byId (distinct : (documentGraphs.map PublishedGraph.id).Nodup) :
    (byId documentGraphs).get? address = some child ↔ ⟨address, child⟩ ∈ documentGraphs := by
  rw [byId, Dict.get?_ofPairs]
  · constructor
    · intro member
      obtain ⟨graph, published, same⟩ := List.mem_map.mp member
      obtain ⟨rfl, rfl⟩ := Prod.mk.inj same
      exact published
    · exact fun published => List.mem_map.mpr ⟨_, published, rfl⟩
  · simpa [List.map_map, Function.comp_def] using distinct

/-- One Node of the structure in hand is followed, and that structure stays in front. -/
theorem follow_following (distinct : (documentGraphs.map PublishedGraph.id).Nodup)
    (following : Following documentGraphs structure_ fuel found (shown :: pending)) (member : node ∈ shown.nodes) :
    Following documentGraphs structure_ fuel (follow (byId documentGraphs) (found, pending) node).1
        (shown :: (follow (byId documentGraphs) (found, pending) node).2) ∧
      (∀ key ∈ found.keys, key ∈ (follow (byId documentGraphs) (found, pending) node).1.keys) ∧
      ∀ graph ∈ documentGraphs, node.subgraphId = some graph.id →
        graph.id ∈ (follow (byId documentGraphs) (found, pending) node).1.keys := by
  unfold follow
  cases names : node.subgraphId with
  | none =>
      refine ⟨following, fun _ kept => kept, ?_⟩
      intro graph _ same
      cases same
  | some address =>
      dsimp only
      cases stored : (byId documentGraphs).get? address with
      | none =>
          refine ⟨following, fun _ kept => kept, ?_⟩
          intro graph published same
          obtain rfl := Option.some.inj same
          rw [(get?_byId distinct).mpr published] at stored
          cases stored
      | some child =>
          have published := (get?_byId distinct).mp stored
          dsimp only
          by_cases seen : address ∈ found.keys
          · rw [if_pos seen]
            refine ⟨following, fun _ kept => kept, ?_⟩
            intro graph _ same
            obtain rfl := Option.some.inj same
            exact seen
          · rw [if_neg seen]
            have reached : Reaches documentGraphs structure_ ⟨address, child⟩ := by
              rcases following.waits shown List.mem_cons_self with rfl | ⟨above, held⟩
              · exact .direct member names published
              · exact .further (following.sound above shown held) member names published
            have grows : ∀ other, Shown structure_ found other → Shown structure_ (found.set address child) other := by
              rintro other (rfl | ⟨above, held⟩)
              · exact .inl rfl
              · have apart : above ≠ address := by
                  rintro rfl
                  exact seen (Dict.mem_keys_of_get? held)
                exact .inr ⟨above, by rw [Dict.get?_set_of_ne _ apart, held]⟩
            refine ⟨⟨?_, ?_, ?_, ?_⟩, fun key kept => Dict.mem_keys_set.mpr (.inr kept), ?_⟩
            · intro other value held
              rw [Dict.get?_set] at held
              split at held
              · rename_i same
                obtain rfl := Option.some.inj held
                rw [same]
                exact reached
              · exact following.sound other value held
            · intro other inside
              rcases List.mem_cons.mp inside with rfl | inside
              · exact grows _ (following.waits _ List.mem_cons_self)
              · rcases List.mem_cons.mp inside with rfl | inside
                · exact .inr ⟨address, Dict.get?_set_self ..⟩
                · exact grows other (following.waits other (List.mem_cons_of_mem _ inside))
            · intro other visible outside inner within graph known same
              rw [List.mem_cons, List.mem_cons, not_or, not_or] at outside
              refine Dict.mem_keys_set.mpr (.inr (following.closed other ?_ ?_ inner within graph known same))
              · rcases visible with rfl | ⟨above, held⟩
                · exact .inl rfl
                · rw [Dict.get?_set] at held
                  split at held
                  · exact absurd (Option.some.inj held).symm outside.2.1
                  · exact .inr ⟨above, held⟩
              · rw [List.mem_cons, not_or]
                exact ⟨outside.1, outside.2.2⟩
            · have known : address ∈ documentGraphs.map PublishedGraph.id := List.mem_map.mpr ⟨_, published, rfl⟩
              have less := card_set child known seen
              have room := following.room
              simp only [List.length_cons] at room ⊢
              omega
            · intro graph _ same
              obtain rfl := Option.some.inj same
              exact Dict.mem_keys_set.mpr (.inl rfl)

/-- All Nodes of the structure in hand are followed. -/
theorem follow_all (distinct : (documentGraphs.map PublishedGraph.id).Nodup)
    (following : Following documentGraphs structure_ fuel found (shown :: pending))
    (members : ∀ node ∈ nodes, node ∈ shown.nodes) :
    Following documentGraphs structure_ fuel (nodes.foldl (follow (byId documentGraphs)) (found, pending)).1
        (shown :: (nodes.foldl (follow (byId documentGraphs)) (found, pending)).2) ∧
      (∀ key ∈ found.keys, key ∈ (nodes.foldl (follow (byId documentGraphs)) (found, pending)).1.keys) ∧
      ∀ node ∈ nodes, ∀ graph ∈ documentGraphs, node.subgraphId = some graph.id →
        graph.id ∈ (nodes.foldl (follow (byId documentGraphs)) (found, pending)).1.keys := by
  induction nodes generalizing found pending with
  | nil => exact ⟨following, fun _ kept => kept, List.forall_mem_nil _⟩
  | cons node rest ih =>
      obtain ⟨own, others⟩ := List.forall_mem_cons.mp members
      obtain ⟨next, kept, first⟩ := follow_following distinct following own
      obtain ⟨last, further, all⟩ := ih next others
      rw [List.foldl_cons]
      refine ⟨last, fun key member => further key (kept key member), List.forall_mem_cons.mpr ⟨?_, all⟩⟩
      exact fun graph known same => further _ (first graph known same)

/-- The loop over the stack ends within its bound. -/
theorem followAll_ok (distinct : (documentGraphs.map PublishedGraph.id).Nodup)
    (following : Following documentGraphs structure_ fuel found pending) :
    ∃ final left, followAll (byId documentGraphs) fuel found pending = .ok final ∧
      Following documentGraphs structure_ left final [] := by
  induction fuel generalizing found pending with
  | zero =>
      cases pending with
      | nil => exact ⟨found, 0, rfl, following⟩
      | cons shown pending =>
          have room := following.room
          rw [List.length_cons] at room
          omega
  | succ fuel ih =>
      cases pending with
      | nil => exact ⟨found, fuel + 1, rfl, following⟩
      | cons shown pending =>
          obtain ⟨next, _, all⟩ := follow_all distinct following fun node member => member
          have popped : Following documentGraphs structure_ fuel
              (shown.nodes.foldl (follow (byId documentGraphs)) (found, pending)).1
              (shown.nodes.foldl (follow (byId documentGraphs)) (found, pending)).2 := by
            refine ⟨next.sound, fun other inside => next.waits other (List.mem_cons_of_mem _ inside), ?_, ?_⟩
            · intro other visible outside
              by_cases same : other = shown
              · subst same
                exact all
              · exact next.closed other visible fun inside => (List.mem_cons.mp inside).elim same outside
            · have room := next.room
              rw [List.length_cons] at room
              omega
          exact ih popped

end

/-- The references of a structure reach exactly the graphs that are found. -/
theorem referencedSubgraphs_ok {documentGraphs : List PublishedGraph} (structure_ : Structure)
    (distinct : (documentGraphs.map PublishedGraph.id).Nodup) :
    ∃ found, referencedSubgraphs documentGraphs structure_ = .ok found ∧
      ∀ address child, found.get? address = some child ↔ Reaches documentGraphs structure_ ⟨address, child⟩ := by
  have start : Following documentGraphs structure_ (documentGraphs.length + 1) Dict.empty [structure_] := by
    constructor
    · intro address child held
      cases held
    · intro shown member
      exact .inl (List.mem_singleton.mp member)
    · intro shown visible outside
      rcases visible with rfl | ⟨address, held⟩
      · exact absurd (List.mem_singleton.mpr rfl) outside
      · cases held
    · have bound := card_room (documentGraphs.map PublishedGraph.id) (Dict.empty : Dict String Structure)
      rw [List.length_map] at bound
      rw [List.length_singleton]
      exact Nat.succ_le_succ bound
  obtain ⟨found, left, ended, following⟩ := followAll_ok distinct start
  refine ⟨found, ended, fun address child => ⟨following.sound address child, fun reached => ?_⟩⟩
  have complete : ∀ graph, Reaches documentGraphs structure_ graph → found.get? graph.id = some graph.structure_ := by
    have held : ∀ graph ∈ documentGraphs, graph.id ∈ found.keys → found.get? graph.id = some graph.structure_ := by
      intro graph published member
      obtain ⟨value, stored⟩ := Option.isSome_iff_exists.mp (placed_iff.mpr member)
      have other := (get?_byId distinct).mpr (following.sound _ _ stored).published
      rw [(get?_byId distinct).mpr published] at other
      rw [stored, other]
    intro graph reached
    induction reached with
    | direct member names published =>
        exact held _ published (following.closed structure_ (.inl rfl) List.not_mem_nil _ member _ published names)
    | further reached member names published ih =>
        exact held _ published (following.closed _ (.inr ⟨_, ih⟩) List.not_mem_nil _ member _ published names)
  exact complete _ reached

end Cordboard.Presentation
