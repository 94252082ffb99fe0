import Mathlib.Data.Finset.Card
import Cordboard.Construction.Web.Layout
import Cordboard.Data.Layers
import Cordboard.Data.Outcome

namespace Cordboard.Presentation
open Data Archive

/-- The targets that the table holds for a Node. -/
def targetsOf (adjacency : Dict String (List String)) (node : String) : List String := (adjacency.get? node).getD []

/-- Each Node has a list of targets, and each target is a Node. -/
structure Adjacent (nodes : List String) (adjacency : Dict String (List String)) : Prop where
  known : ∀ node ∈ nodes, (adjacency.get? node).isSome = true
  within : ∀ node ∈ nodes, ∀ target ∈ targetsOf adjacency node, target ∈ nodes

/-- The depths belong to Nodes, and they stay when the loop goes on. -/
structure Extends (nodes : List String) (before after : Dict String Nat) : Prop where
  within : ∀ node ∈ after.keys, node ∈ nodes
  kept : ∀ node, ∀ depth ∈ before.get? node, depth ∈ after.get? node

/-- The Nodes without a depth and the Nodes in the queue bound the rest of the loop. -/
structure Searching (nodes : List String) (adjacency : Dict String (List String)) (fuel : Nat)
    (depths : Dict String Nat) (queue : List String) : Prop where
  layers : Layers (targetsOf adjacency) depths.get? queue
  within : ∀ node ∈ depths.keys, node ∈ nodes
  room : (nodes.toFinset \ depths.keys.toFinset).card + queue.length ≤ fuel

section
variable {nodes queue targets roots : List String} {edges : List Edge} {adjacency : Dict String (List String)}
  {depths before after : Dict String Nat} {node target : String} {depth fuel : Nat}

theorem index_ok {K V : Type} [DecidableEq K] {table : Dict K V} {key : K} {value : V} :
    index table key = .ok value ↔ table.get? key = some value := by
  unfold index
  cases table.get? key with
  | none => simp
  | some stored => simp

theorem get?_set_update (depths : Dict String Nat) (node : String) (depth : Nat) :
    (depths.set node depth).get? = Function.update depths.get? node (some depth) := by
  funext other
  rw [Dict.get?_set, Function.update_apply]

theorem Extends.refl (within : ∀ node ∈ depths.keys, node ∈ nodes) : Extends nodes depths depths :=
  ⟨within, fun _ _ stored => stored⟩

theorem Extends.trans {middle : Dict String Nat} (first : Extends nodes before middle)
    (second : Extends nodes middle after) : Extends nodes before after :=
  ⟨second.within, fun node depth stored => second.kept node depth (first.kept node depth stored)⟩

theorem absent_iff : depths.get? node = none ↔ node ∉ depths.keys := Dict.get?_eq_none_iff depths node

theorem placed_iff {V : Type} {table : Dict String V} : (table.get? node).isSome = true ↔ node ∈ table.keys := by
  rw [← not_iff_not, ← Dict.get?_eq_none_iff, Bool.not_eq_true, Option.isSome_eq_false_iff, Option.isNone_iff_eq_none]

theorem Extends.mem (grows : Extends nodes before after) (member : node ∈ before.keys) : node ∈ after.keys := by
  obtain ⟨stored, held⟩ := Option.isSome_iff_exists.mp (placed_iff.mpr member)
  exact placed_iff.mp (Option.isSome_iff_exists.mpr ⟨stored, grows.kept node stored held⟩)

theorem set_extends (depth : Nat) (known : node ∈ nodes) (fresh : node ∉ depths.keys) (within : ∀ node ∈ depths.keys, node ∈ nodes) :
    Extends nodes depths (depths.set node depth) := by
  constructor
  · intro other member
    rcases Dict.mem_keys_set.mp member with rfl | old
    · exact known
    · exact within other old
  · intro other stored found
    rw [get?_set_update]
    exact Layers.mem_update (absent_iff.mpr fresh) found

/-- A new key leaves fewer names without a value. -/
theorem card_set {V : Type} {table : Dict String V} (value : V) (known : node ∈ nodes) (fresh : node ∉ table.keys) :
    (nodes.toFinset \ (table.set node value).keys.toFinset).card + 1 ≤ (nodes.toFinset \ table.keys.toFinset).card := by
  apply Finset.card_lt_card
  rw [Finset.ssubset_iff_of_subset]
  · refine ⟨node, ?_, ?_⟩
    · rw [Finset.mem_sdiff, List.mem_toFinset, List.mem_toFinset]
      exact ⟨known, fresh⟩
    · rw [Finset.mem_sdiff, List.mem_toFinset, List.mem_toFinset, Dict.mem_keys_set]
      exact fun away => away.2 (.inl rfl)
  · intro other member
    rw [Finset.mem_sdiff, List.mem_toFinset, List.mem_toFinset, Dict.mem_keys_set, not_or] at member
    rw [Finset.mem_sdiff, List.mem_toFinset, List.mem_toFinset]
    exact ⟨member.1, member.2.2⟩

theorem card_room {V : Type} (nodes : List String) (table : Dict String V) :
    (nodes.toFinset \ table.keys.toFinset).card ≤ nodes.length :=
  (Finset.card_le_card Finset.sdiff_subset).trans nodes.toFinset_card_le

/-- One target of the head is found, and the head stays in front. -/
theorem discover_searching (searching : Searching nodes adjacency fuel depths (node :: queue))
    (placed : depth ∈ depths.get? node) (known : target ∈ nodes) :
    Searching nodes adjacency fuel (discover depth (depths, queue) target).1
        (node :: (discover depth (depths, queue) target).2) ∧
      Extends nodes depths (discover depth (depths, queue) target).1 ∧
      target ∈ (discover depth (depths, queue) target).1.keys := by
  unfold discover
  dsimp only
  by_cases seen : target ∈ depths.keys
  · rw [if_pos seen]
    exact ⟨searching, .refl searching.within, seen⟩
  · rw [if_neg seen]
    have grows := set_extends (depth + 1) known seen searching.within
    refine ⟨⟨?_, grows.within, ?_⟩, grows, Dict.mem_keys_set.mpr (.inl rfl)⟩
    · rw [get?_set_update]
      exact searching.layers.reach placed (absent_iff.mpr seen)
    · have less := card_set (depth + 1) known seen
      have room := searching.room
      rw [List.length_cons] at room
      show (nodes.toFinset \ (depths.set target (depth + 1)).keys.toFinset).card + (node :: (queue ++ [target])).length ≤ fuel
      rw [List.length_cons, List.length_append, List.length_singleton]
      omega

/-- All targets of the head are found. -/
theorem discover_all (searching : Searching nodes adjacency fuel depths (node :: queue))
    (placed : depth ∈ depths.get? node) (known : ∀ target ∈ targets, target ∈ nodes) :
    Searching nodes adjacency fuel (targets.foldl (discover depth) (depths, queue)).1
        (node :: (targets.foldl (discover depth) (depths, queue)).2) ∧
      Extends nodes depths (targets.foldl (discover depth) (depths, queue)).1 ∧
      ∀ target ∈ targets, target ∈ (targets.foldl (discover depth) (depths, queue)).1.keys := by
  induction targets generalizing depths queue with
  | nil => exact ⟨searching, .refl searching.within, List.forall_mem_nil _⟩
  | cons target rest ih =>
      obtain ⟨own, others⟩ := List.forall_mem_cons.mp known
      obtain ⟨next, grows, found⟩ := discover_searching searching placed own
      rw [List.foldl_cons]
      obtain ⟨last, further, all⟩ := ih next (grows.kept node depth placed) others
      refine ⟨last, grows.trans further, ?_⟩
      rw [List.forall_mem_cons]
      exact ⟨further.mem found, all⟩

/-- The loop over the queue ends within its bound and closes every Node. -/
theorem search_ok (adjacent : Adjacent nodes adjacency) (searching : Searching nodes adjacency fuel depths queue) :
    ∃ final, search adjacency fuel depths queue = .ok final ∧ Layers (targetsOf adjacency) final.get? [] ∧
      Extends nodes depths final := by
  induction fuel generalizing depths queue with
  | zero =>
      cases queue with
      | nil => exact ⟨depths, rfl, searching.layers, .refl searching.within⟩
      | cons node queue =>
          have room := searching.room
          rw [List.length_cons] at room
          omega
  | succ fuel ih =>
      cases queue with
      | nil => exact ⟨depths, rfl, searching.layers, .refl searching.within⟩
      | cons node queue =>
          obtain ⟨depth, placed⟩ := Option.isSome_iff_exists.mp (searching.layers.queued node List.mem_cons_self)
          have member : node ∈ nodes := searching.within node (Dict.mem_keys_of_get? placed)
          obtain ⟨targets, stored⟩ := Option.isSome_iff_exists.mp (adjacent.known node member)
          have own : targetsOf adjacency node = targets := by rw [targetsOf, stored, Option.getD_some]
          obtain ⟨next, grows, all⟩ := discover_all searching placed fun target within =>
            adjacent.within node member target (own ▸ within)
          have popped : Searching nodes adjacency fuel (targets.foldl (discover depth) (depths, queue)).1
              (targets.foldl (discover depth) (depths, queue)).2 := by
            refine ⟨next.layers.pop ?_, next.within, ?_⟩
            · intro target within
              exact placed_iff.mpr (all target (own ▸ within))
            · have room := next.room
              rw [List.length_cons] at room
              omega
          obtain ⟨final, searched, layers, further⟩ := ih popped
          refine ⟨final, ?_, layers, grows.trans further⟩
          rw [search, index_ok.mpr stored, index_ok.mpr placed]
          exact searched

/-- Each root gets a depth. -/
theorem assign_ok (adjacent : Adjacent nodes adjacency) (layers : Layers (targetsOf adjacency) depths.get? [])
    (within : ∀ node ∈ depths.keys, node ∈ nodes) (known : ∀ root ∈ roots, root ∈ nodes) :
    ∃ final, assign adjacency (nodes.length + 1) depths roots = .ok final ∧
      Layers (targetsOf adjacency) final.get? [] ∧ Extends nodes depths final ∧ ∀ root ∈ roots, root ∈ final.keys := by
  induction roots generalizing depths with
  | nil => exact ⟨depths, rfl, layers, .refl within, List.forall_mem_nil _⟩
  | cons root roots ih =>
      obtain ⟨own, others⟩ := List.forall_mem_cons.mp known
      rw [assign]
      by_cases seen : root ∈ depths.keys
      · rw [if_pos seen]
        obtain ⟨final, assigned, last, further, all⟩ := ih layers within others
        exact ⟨final, assigned, last, further, List.forall_mem_cons.mpr ⟨further.mem seen, all⟩⟩
      · rw [if_neg seen]
        dsimp only
        generalize lowest : ((depths.items.map Prod.snd).max?.map (· + 1)).getD 0 = depth
        have values : ∀ node, ∀ e ∈ depths.get? node, e ∈ depths.items.map Prod.snd := fun node e stored =>
          List.mem_map.mpr ⟨(node, e), (Dict.get?_eq_some_iff depths node e).mp stored, rfl⟩
        have grows := set_extends depth own seen within
        have rooted : Searching nodes adjacency (nodes.length + 1) (depths.set root depth) [root] := by
          refine ⟨?_, grows.within, ?_⟩
          · rw [get?_set_update]
            apply layers.root (absent_iff.mpr seen)
            · intro node e stored
              have member := values node e stored
              cases top : (depths.items.map Prod.snd).max? with
              | none => rw [List.max?_eq_none_iff.mp top] at member; cases member
              | some most =>
                  have := (List.max?_eq_some_iff.mp top).2 e member
                  rw [top] at lowest
                  simp only [Option.map_some, Option.getD_some] at lowest
                  omega
            · intro e less
              cases top : (depths.items.map Prod.snd).max? with
              | none =>
                  rw [top] at lowest
                  simp only [Option.map_none, Option.getD_none] at lowest
                  omega
              | some most =>
                  rw [top] at lowest
                  simp only [Option.map_some, Option.getD_some] at lowest
                  obtain ⟨⟨node, stored⟩, member, rfl⟩ := List.mem_map.mp (List.max?_eq_some_iff.mp top).1
                  exact layers.contiguous node stored ((Dict.get?_eq_some_iff depths node stored).mpr member) e
                    (by omega)
          · have bound := card_room nodes (depths.set root depth)
            rw [List.length_singleton]
            omega
        obtain ⟨searched, found, next, further⟩ := search_ok adjacent rooted
        obtain ⟨final, assigned, last, beyond, all⟩ := ih next further.within others
        refine ⟨final, ?_, last, (grows.trans further).trans beyond, List.forall_mem_cons.mpr ⟨?_, all⟩⟩
        · rw [found]
          exact assigned
        · exact (further.trans beyond).mem (Dict.mem_keys_set.mpr (.inl rfl))

/-- The table holds the targets of each Node in the order of the edges. -/
theorem adjacency_foldlM (known : ∀ edge ∈ edges, edge.source ∈ adjacency.keys) :
    ∃ final, edges.foldlM (fun adjacency edge => do
        let targets ← index adjacency edge.source
        .ok (adjacency.set edge.source (targets ++ [edge.target]))) adjacency = .ok final ∧
      ∀ node, final.get? node =
        (adjacency.get? node).map (· ++ (edges.filter fun edge => edge.source = node).map Edge.target) := by
  induction edges generalizing adjacency with
  | nil => exact ⟨adjacency, rfl, fun node => by simp⟩
  | cons edge rest ih =>
      obtain ⟨own, others⟩ := List.forall_mem_cons.mp known
      cases stored : adjacency.get? edge.source with
      | none => exact absurd own ((Dict.get?_eq_none_iff adjacency edge.source).mp stored)
      | some targets =>
          obtain ⟨final, built, all⟩ := ih fun other member => Dict.mem_keys_set.mpr (.inr (others other member))
          refine ⟨final, ?_, ?_⟩
          · rw [List.foldlM_cons, index_ok.mpr stored]
            exact built
          · intro node
            rw [all node, Dict.get?_set]
            by_cases same : edge.source = node
            · subst same
              rw [if_pos rfl, stored]
              simp
            · rw [if_neg (Ne.symm same), List.filter_cons_of_neg (by simpa using same)]

theorem adjacencyOf_ok (distinct : nodes.Nodup)
    (known : ∀ edge ∈ edges, edge.source ∈ nodes ∧ edge.target ∈ nodes) :
    ∃ adjacency, adjacencyOf nodes edges = .ok adjacency ∧ Adjacent nodes adjacency ∧
      ∀ edge ∈ edges, edge.target ∈ targetsOf adjacency edge.source := by
  have keys : ((nodes.map fun node => (node, ([] : List String))).map Prod.fst).Nodup := by
    simpa [List.map_map, Function.comp_def] using distinct
  have empty : ∀ node ∈ nodes, (Dict.ofPairs (nodes.map fun node => (node, ([] : List String)))).get? node = some [] :=
    fun node member => (Dict.get?_ofPairs keys).mpr (List.mem_map.mpr ⟨node, member, rfl⟩)
  have sources : ∀ edge ∈ edges, edge.source ∈ (Dict.ofPairs (nodes.map fun node => (node, ([] : List String)))).keys :=
    fun edge member => Dict.mem_keys_of_get? (empty edge.source (known edge member).1)
  obtain ⟨adjacency, built, all⟩ := adjacency_foldlM sources
  have stored : ∀ node ∈ nodes, adjacency.get? node = some ((edges.filter fun edge => edge.source = node).map Edge.target) := by
    intro node member
    rw [all node, empty node member]
    rfl
  refine ⟨adjacency, built, ⟨?_, ?_⟩, ?_⟩
  · intro node member
    rw [stored node member]
    rfl
  · intro node member target within
    rw [targetsOf, stored node member, Option.getD_some, List.mem_map] at within
    obtain ⟨edge, inside, rfl⟩ := within
    exact (known edge (List.mem_of_mem_filter inside)).2
  · intro edge member
    rw [targetsOf, stored edge.source (known edge member).1, Option.getD_some, List.mem_map]
    exact ⟨edge, List.mem_filter.mpr ⟨member, decide_eq_true rfl⟩, rfl⟩

end

/-- The ids are distinct, and the entries and the edges refer to them. -/
structure Valid (derivedJoinEdges : JoinEdges) (structure_ : Structure) : Prop where
  distinct : structure_.nodeIds.Nodup
  entries : ∀ node ∈ structure_.entryNodeIds, node ∈ structure_.nodeIds
  edges : ∀ edge ∈ allEdges derivedJoinEdges structure_,
    edge.source ∈ structure_.nodeIds ∧ edge.target ∈ structure_.nodeIds

/-- The rows start at zero without a gap, and no edge leads further down than one row. -/
structure Rowed (nodes : List String) (edges : List Edge) (row : String → Nat) : Prop where
  contiguous : ∀ node ∈ nodes, ∀ above ≤ row node, ∃ other ∈ nodes, row other = above
  near : ∀ edge ∈ edges, row edge.target ≤ row edge.source + 1

/-- The search ends and gives each Node of a valid structure a row. -/
theorem depths_ok {derivedJoinEdges : JoinEdges} {structure_ : Structure} (valid : Valid derivedJoinEdges structure_) :
    ∃ adjacency depths row,
      adjacencyOf structure_.nodeIds (allEdges derivedJoinEdges structure_) = .ok adjacency ∧
      assign adjacency (structure_.nodeIds.length + 1) Dict.empty (structure_.entryNodeIds ++ structure_.nodeIds) =
        .ok depths ∧
      (∀ node ∈ structure_.nodeIds, depths.get? node = some (row node)) ∧
      Rowed structure_.nodeIds (allEdges derivedJoinEdges structure_) row := by
  obtain ⟨adjacency, built, adjacent, drawn⟩ := adjacencyOf_ok valid.distinct valid.edges
  have known : ∀ root ∈ structure_.entryNodeIds ++ structure_.nodeIds, root ∈ structure_.nodeIds := by
    intro root member
    exact (List.mem_append.mp member).elim (valid.entries root) id
  have start : Layers (targetsOf adjacency) (Dict.empty : Dict String Nat).get? [] := Layers.start
  obtain ⟨depths, assigned, layers, grows, all⟩ := assign_ok adjacent start
    (fun node member => absurd member List.not_mem_nil) known
  have stored : ∀ node ∈ structure_.nodeIds, depths.get? node = some ((depths.get? node).getD 0) := by
    intro node member
    obtain ⟨depth, found⟩ := Option.isSome_iff_exists.mp (placed_iff.mpr (all node (List.mem_append_right _ member)))
    rw [found]
    rfl
  refine ⟨adjacency, depths, fun node => (depths.get? node).getD 0, built, assigned, stored, ?_, ?_⟩
  · intro node member above within
    obtain ⟨other, found⟩ := layers.contiguous node _ (stored node member) above within
    refine ⟨other, grows.within other (Dict.mem_keys_of_get? found), ?_⟩
    rw [Option.mem_def.mp found]
    rfl
  · intro edge member
    obtain ⟨depth, found, near⟩ := layers.closed edge.source List.not_mem_nil _
      (stored edge.source (valid.edges edge member).1) edge.target (drawn edge member)
    rw [Option.mem_def.mp found]
    exact near

end Cordboard.Presentation
