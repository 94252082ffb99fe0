import Cordboard.Data.Joined
import Cordboard.Proof.Web.Boxes
import Cordboard.Proof.Web.References

namespace Cordboard.Presentation
open Data Archive

/-- One call site has a path of indexes, its Node with the address, and the addresses that are open above it. -/
structure CallSite where
  path : List Nat
  node : Node
  address : String
  above : List String

/-- A call site is reached through addresses that are not open yet. -/
inductive Site (documentGraphs : List PublishedGraph) : Structure → List Nat → List String → CallSite → Prop
  | here {structure_ : Structure} {path : List Nat} {above : List String} {index : Nat} {node : Node} {address : String}
      (found : structure_.nodes[index]? = some node) (names : node.subgraphId = some address) :
      Site documentGraphs structure_ path above ⟨path ++ [index], node, address, above⟩
  | under {structure_ : Structure} {path : List Nat} {above : List String} {index : Nat} {node : Node}
      {graph : PublishedGraph} {site : CallSite} (found : structure_.nodes[index]? = some node)
      (names : node.subgraphId = some graph.id) (shut : graph.id ∉ above) (published : graph ∈ documentGraphs)
      (below : Site documentGraphs graph.structure_ (path ++ [index]) (above ++ [graph.id]) site) :
      Site documentGraphs structure_ path above site

/-- The entry belongs to the call site, and its status says whether the address can be opened. -/
structure Describes (derivedJoinEdges : JoinEdges) (documentGraphs : List PublishedGraph) (entry : Expansion)
    (site : CallSite) : Prop where
  node : entry.node = site.node.id
  address : entry.address = site.address
  key : entry.key = expansionKey site.path
  cyclic : entry.status = .cyclic ↔ site.address ∈ site.above
  unresolved : entry.status = .unresolved ↔ site.address ∉ documentGraphs.map PublishedGraph.id
  diagram : entry.diagram.isSome = true ↔ entry.status = .resolved
  drawn : ∀ diagram ∈ entry.diagram, ∃ graph ∈ documentGraphs, graph.id = site.address ∧
    layout derivedJoinEdges graph.structure_ = .ok diagram

/-- The structure that a call site opens. -/
def opened (subgraphs : Dict String Structure) (above : List String) (address : String) : Option Structure :=
  if address ∈ above then none else subgraphs.get? address

/-- The call sites in the order of the page. -/
def sitesOf (subgraphs : Dict String Structure) : Nat → Structure → List Nat → List String → List CallSite
  | 0, _, _, _ => []
  | fuel + 1, structure_, path, above =>
      (references structure_).flatMap fun reference =>
        ⟨path ++ [reference.1], reference.2.1, reference.2.2, above⟩ ::
          (opened subgraphs above reference.2.2).toList.flatMap fun child =>
            sitesOf subgraphs fuel child (path ++ [reference.1]) (above ++ [reference.2.2])

/-- The map holds each graph that the structure refers to. -/
def Complete (documentGraphs : List PublishedGraph) (subgraphs : Dict String Structure) (structure_ : Structure) : Prop :=
  ∀ node ∈ structure_.nodes, ∀ address ∈ node.subgraphId, ∀ child,
    subgraphs.get? address = some child ↔ ⟨address, child⟩ ∈ documentGraphs

/-- The open addresses and the rest of the fuel exceed the number of subgraphs. -/
structure Room (subgraphs : Dict String Structure) (fuel : Nat) (above : List String) : Prop where
  distinct : above.Nodup
  known : ∀ address ∈ above, address ∈ subgraphs.keys
  enough : subgraphs.keys.length < fuel + above.length

section
variable {derivedJoinEdges : JoinEdges} {documentGraphs : List PublishedGraph} {subgraphs : Dict String Structure}
  {structure_ child : Structure} {path : List Nat} {above : List String} {fuel index : Nat} {node : Node}
  {address : String} {site : CallSite}

theorem mem_references : (index, node, address) ∈ references structure_ ↔
    structure_.nodes[index]? = some node ∧ node.subgraphId = some address := by
  unfold references
  simp only [List.mem_filterMap, Option.map_eq_some_iff, Prod.mk.injEq, Prod.exists, List.mem_zipIdx_iff_getElem?]
  constructor
  · rintro ⟨other, position, found, value, names, rfl, rfl, rfl⟩
    exact ⟨found, names⟩
  · rintro ⟨found, names⟩
    exact ⟨node, index, found, address, names, rfl, rfl, rfl⟩

theorem opened_iff : opened subgraphs above address = some child ↔
    address ∉ above ∧ subgraphs.get? address = some child := by
  unfold opened
  split <;> simp [*]

theorem Room.pos (room : Room subgraphs fuel above) : 0 < fuel := by
  have short := (room.distinct.subperm room.known).length_le
  have enough := room.enough
  omega

/-- An address that is not open yet may be opened. -/
theorem Room.open_ (room : Room subgraphs (fuel + 1) above) (shut : address ∉ above)
    (stored : subgraphs.get? address = some child) : Room subgraphs fuel (above ++ [address]) := by
  constructor
  · rw [List.nodup_append]
    refine ⟨room.distinct, List.nodup_singleton _, ?_⟩
    rintro old member new fresh rfl
    exact shut (List.mem_singleton.mp fresh ▸ member)
  · intro other member
    rcases List.mem_append.mp member with old | new
    · exact room.known other old
    · exact List.mem_singleton.mp new ▸ Dict.mem_keys_of_get? stored
  · have enough := room.enough
    rw [List.length_append, List.length_singleton]
    omega

/-- The listed call sites are those of the document. -/
theorem mem_sitesOf (complete : Complete documentGraphs subgraphs structure_)
    (completes : ∀ address child, subgraphs.get? address = some child → Complete documentGraphs subgraphs child)
    (room : Room subgraphs fuel above) :
    site ∈ sitesOf subgraphs fuel structure_ path above ↔ Site documentGraphs structure_ path above site := by
  induction fuel generalizing structure_ path above with
  | zero => exact absurd room.pos (Nat.lt_irrefl 0)
  | succ fuel ih =>
      rw [sitesOf, List.mem_flatMap]
      constructor
      · rintro ⟨⟨index, node, address⟩, member, inside⟩
        obtain ⟨found, names⟩ := mem_references.mp member
        rcases List.mem_cons.mp inside with rfl | inside
        · exact .here found names
        · obtain ⟨child, opens, inside⟩ := List.mem_flatMap.mp inside
          obtain ⟨shut, stored⟩ := opened_iff.mp (Option.mem_toList.mp opens)
          have below := (ih (completes address child stored) (room.open_ shut stored)).mp inside
          have published := (complete node (List.mem_of_getElem? found) address names child).mp stored
          have names : node.subgraphId = some (⟨address, child⟩ : PublishedGraph).id := names
          exact .under found names shut published below
      · intro reached
        cases reached with
        | @here _ _ _ index node address found names =>
            exact ⟨(index, node, address), mem_references.mpr ⟨found, names⟩, List.mem_cons_self⟩
        | @under _ _ _ index node graph site found names shut published below =>
            have stored := (complete node (List.mem_of_getElem? found) graph.id names graph.structure_).mpr published
            refine ⟨(index, node, graph.id), mem_references.mpr ⟨found, names⟩, List.mem_cons_of_mem _ ?_⟩
            rw [List.mem_flatMap]
            exact ⟨graph.structure_, Option.mem_toList.mpr (opened_iff.mpr ⟨shut, stored⟩),
              (ih (completes _ _ stored) (room.open_ shut stored)).mpr below⟩

/-- Each listed path goes on from the path of its structure. -/
theorem path_of_mem_sitesOf (member : site ∈ sitesOf subgraphs fuel structure_ path above) :
    ∃ index rest, site.path = path ++ index :: rest := by
  induction fuel generalizing structure_ path above with
  | zero => cases member
  | succ fuel ih =>
      rw [sitesOf, List.mem_flatMap] at member
      obtain ⟨⟨index, node, address⟩, _, inside⟩ := member
      rcases List.mem_cons.mp inside with rfl | inside
      · exact ⟨index, [], rfl⟩
      · obtain ⟨child, _, inside⟩ := List.mem_flatMap.mp inside
        obtain ⟨next, rest, same⟩ := ih inside
        exact ⟨index, next :: rest, by rw [same, List.append_assoc]; rfl⟩

/-- The references stand under different indexes. -/
theorem references_apart : (references structure_).Pairwise fun first second => first.1 ≠ second.1 := by
  unfold references
  apply List.Pairwise.filterMap _ _ (zipIdx_apart structure_.nodes)
  intro first second apart one held two kept
  obtain ⟨_, _, rfl⟩ := Option.map_eq_some_iff.mp held
  obtain ⟨_, _, rfl⟩ := Option.map_eq_some_iff.mp kept
  exact apart

/-- No two call sites have one path. -/
theorem sitesOf_nodup : ((sitesOf subgraphs fuel structure_ path above).map CallSite.path).Nodup := by
  induction fuel generalizing structure_ path above with
  | zero => exact List.nodup_nil
  | succ fuel ih =>
      have longer : ∀ reference : Nat × Node × String, ∀ found ∈ ((opened subgraphs above reference.2.2).toList.flatMap
          fun child => sitesOf subgraphs fuel child (path ++ [reference.1]) (above ++ [reference.2.2])).map CallSite.path,
          ∃ next rest, found = path ++ reference.1 :: next :: rest := by
        intro reference found member
        obtain ⟨site, inside, rfl⟩ := List.mem_map.mp member
        obtain ⟨child, _, inside⟩ := List.mem_flatMap.mp inside
        obtain ⟨next, rest, same⟩ := path_of_mem_sitesOf inside
        exact ⟨next, rest, by rw [same, List.append_assoc]; rfl⟩
      have starts : ∀ reference : Nat × Node × String, ∀ found ∈ (path ++ [reference.1]) ::
          ((opened subgraphs above reference.2.2).toList.flatMap fun child =>
            sitesOf subgraphs fuel child (path ++ [reference.1]) (above ++ [reference.2.2])).map CallSite.path,
          ∃ rest, found = path ++ reference.1 :: rest := by
        intro reference found member
        rcases List.mem_cons.mp member with rfl | below
        · exact ⟨[], rfl⟩
        · obtain ⟨next, rest, same⟩ := longer reference found below
          exact ⟨next :: rest, same⟩
      rw [sitesOf, List.map_flatMap, List.nodup_flatMap]
      constructor
      · intro reference _
        rw [List.map_cons, List.nodup_cons]
        constructor
        · intro member
          obtain ⟨next, rest, same⟩ := longer reference _ member
          have lengths := congrArg List.length same
          simp only [List.length_append, List.length_cons, List.length_nil] at lengths
          omega
        · cases opened subgraphs above reference.2.2 with
          | none => exact List.nodup_nil
          | some child =>
              rw [Option.toList_some, List.flatMap_singleton]
              exact ih
      · apply references_apart.imp
        intro first second apart found one two
        obtain ⟨_, same⟩ := starts first found one
        obtain ⟨_, other⟩ := starts second found two
        have heads := List.append_cancel_left (same.symm.trans other)
        exact apart (List.cons.inj heads).1

theorem flatten_mk {entry : Expansion} : entry.flatten = entry :: flattenExpansions entry.children := by
  cases entry
  rw [Expansion.flatten]

/-- The entries of a loop are those of its single steps. -/
theorem mapM_flatten {A : Type} {step : A → Checked Expansion} {sites : A → List CallSite} {items : List A}
    {relates : Expansion → CallSite → Prop}
    (each : ∀ item ∈ items, ∃ entry, step item = .ok entry ∧ List.Forall₂ relates entry.flatten (sites item)) :
    ∃ entries, items.mapM step = .ok entries ∧
      List.Forall₂ relates (flattenExpansions entries) (items.flatMap sites) := by
  obtain ⟨entries, mapped, related⟩ := mapM_forall₂ each
  refine ⟨entries, mapped, ?_⟩
  clear mapped each
  induction related with
  | nil => rw [flattenExpansions]; exact .nil
  | cons first _ ih =>
      rw [flattenExpansions, List.flatMap_cons]
      exact List.rel_append first ih

theorem key_of_describes {entries : List Expansion} {sites : List CallSite}
    (described : List.Forall₂ (Describes derivedJoinEdges documentGraphs) entries sites) :
    entries.map Expansion.key = sites.map fun site => expansionKey site.path := by
  induction described with
  | nil => rfl
  | cons first _ ih => rw [List.map_cons, List.map_cons, first.key, ih]

/-- The expansion ends within its bound, with one entry for each call site in order. -/
theorem expand_ok (derivedJoinEdges : JoinEdges) (path : List Nat)
    (complete : Complete documentGraphs subgraphs structure_)
    (completes : ∀ address child, subgraphs.get? address = some child → Complete documentGraphs subgraphs child)
    (valid : ∀ address child, subgraphs.get? address = some child →
      ⟨address, child⟩ ∈ documentGraphs ∧ Valid derivedJoinEdges child)
    (room : Room subgraphs fuel above) :
    ∃ entries, expand derivedJoinEdges subgraphs fuel structure_ path above = .ok entries ∧
      List.Forall₂ (Describes derivedJoinEdges documentGraphs) (flattenExpansions entries)
        (sitesOf subgraphs fuel structure_ path above) := by
  induction fuel generalizing structure_ path above with
  | zero => exact absurd room.pos (Nat.lt_irrefl 0)
  | succ fuel ih =>
      rw [expand, sitesOf]
      apply mapM_flatten
      rintro ⟨index, node, address⟩ member
      obtain ⟨found, names⟩ := mem_references.mp member
      dsimp only
      by_cases shut : address ∈ above
      · rw [if_pos shut]
        have none_ : opened subgraphs above address = none := if_pos shut
        obtain ⟨child, stored⟩ := Option.isSome_iff_exists.mp (placed_iff.mpr (room.known address shut))
        have published := (valid address child stored).1
        refine ⟨_, rfl, ?_⟩
        rw [flatten_mk, none_, Option.toList_none, List.flatMap_nil, flattenExpansions]
        refine .cons ⟨rfl, rfl, rfl, ⟨fun _ => shut, fun _ => rfl⟩, ?_, by simp, by simp⟩ .nil
        exact iff_of_false (show ExpansionStatus.cyclic ≠ .unresolved by decide)
          (not_not_intro (List.mem_map.mpr ⟨_, published, rfl⟩))
      · rw [if_neg shut]
        cases stored : subgraphs.get? address with
        | none =>
            have none_ : opened subgraphs above address = none := (if_neg shut).trans stored
            refine ⟨_, rfl, ?_⟩
            rw [flatten_mk, none_, Option.toList_none, List.flatMap_nil, flattenExpansions]
            have other : ExpansionStatus.unresolved ≠ .cyclic := by decide
            refine .cons ⟨rfl, rfl, rfl, iff_of_false other shut, iff_of_true rfl ?_, by simp, by simp⟩ .nil
            intro known
            obtain ⟨graph, published, rfl⟩ := List.mem_map.mp known
            rw [(complete node (List.mem_of_getElem? found) graph.id names graph.structure_).mpr published] at stored
            cases stored
        | some child =>
            have some_ : opened subgraphs above address = some child := opened_iff.mpr ⟨shut, stored⟩
            obtain ⟨published, sound⟩ := valid address child stored
            obtain ⟨diagram, drawn, _⟩ := layout_ok derivedJoinEdges child sound
            obtain ⟨children, expanded, described⟩ := ih (path ++ [index]) (completes address child stored)
              (room.open_ shut stored)
            refine ⟨⟨node.id, address, expansionKey (path ++ [index]), .resolved, some diagram, children⟩, ?_, ?_⟩
            · dsimp only
              rw [drawn, expanded]
              rfl
            · rw [flatten_mk, some_, Option.toList_some, List.flatMap_singleton]
              have shown : ExpansionStatus.resolved ≠ .cyclic ∧ ExpansionStatus.resolved ≠ .unresolved := by decide
              refine .cons ⟨rfl, rfl, rfl, iff_of_false shown.1 shut, ?_, by simp, ?_⟩ described
              · exact iff_of_false shown.2 (not_not_intro (List.mem_map.mpr ⟨_, published, rfl⟩))
              · intro other held
                obtain rfl := Option.some.inj held
                exact ⟨_, published, rfl, drawn⟩

end

/-- Paths that are not empty have different keys. -/
theorem expansionKey_injective {first second : List Nat} (one : first ≠ []) (two : second ≠ [])
    (same : expansionKey first = expansionKey second) : first = second := by
  have digits : ∀ path : List Nat, ∀ part ∈ path.map (toString : Nat → String), '-' ∉ part.toList := by
    intro path part member mark
    obtain ⟨number, _, rfl⟩ := List.mem_map.mp member
    exact absurd (isDigit_of_mem_toString mark) (by decide)
  have joined : "-".intercalate (first.map toString) = "-".intercalate (second.map toString) := by
    have texts := congrArg String.toList same
    rw [expansionKey, expansionKey, String.toList_append, String.toList_append] at texts
    exact String.toList_injective (List.append_cancel_left texts)
  have parts := intercalate_injective '-' (digits first) (digits second) (by simpa using one)
    (by simpa using two) joined
  exact List.map_injective_iff.mpr toString_injective parts

/-- The map holds the reachable graphs, and the entries are those of the call sites, each with a key of its own. -/
structure Expanded (derivedJoinEdges : JoinEdges) (documentGraphs : List PublishedGraph) (structure_ : Structure)
    (found : Dict String Structure) (entries : List Expansion) : Prop where
  reachable : ∀ address child, found.get? address = some child ↔ Reaches documentGraphs structure_ ⟨address, child⟩
  sites : ∃ sites : List CallSite, (sites.map CallSite.path).Nodup ∧
    (∀ site, site ∈ sites ↔ Site documentGraphs structure_ [] [] site) ∧
    List.Forall₂ (Describes derivedJoinEdges documentGraphs) (flattenExpansions entries) sites
  keys : ((flattenExpansions entries).map Expansion.key).Nodup

/-- Both loops end, and the page has exactly one entry for each call site. -/
theorem expansions_ok (derivedJoinEdges : JoinEdges) (documentGraphs : List PublishedGraph) (structure_ : Structure)
    (distinct : (documentGraphs.map PublishedGraph.id).Nodup)
    (valid : ∀ graph ∈ documentGraphs, Valid derivedJoinEdges graph.structure_) :
    ∃ found entries, referencedSubgraphs documentGraphs structure_ = .ok found ∧
      expansions derivedJoinEdges (some structure_) found = .ok entries ∧
      Expanded derivedJoinEdges documentGraphs structure_ found entries := by
  obtain ⟨found, searched, reachable⟩ := referencedSubgraphs_ok structure_ distinct
  have complete : Complete documentGraphs found structure_ := by
    intro node member address names child
    rw [reachable]
    exact ⟨Reaches.published, fun published => .direct member names published⟩
  have completes : ∀ address child, found.get? address = some child → Complete documentGraphs found child := by
    intro above shown held node member address names child
    rw [reachable]
    exact ⟨Reaches.published, fun published => .further ((reachable above shown).mp held) member names published⟩
  have room : Room found (found.keys.length + 1) [] :=
    ⟨List.nodup_nil, List.forall_mem_nil _, by rw [List.length_nil]; omega⟩
  obtain ⟨entries, expanded, described⟩ := expand_ok derivedJoinEdges [] complete completes
    (fun address child held => ⟨((reachable address child).mp held).published,
      valid _ ((reachable address child).mp held).published⟩) room
  refine ⟨found, entries, searched, expanded, reachable, ⟨_, sitesOf_nodup,
    fun site => mem_sitesOf complete completes room, described⟩, ?_⟩
  have apart : ((sitesOf found (found.keys.length + 1) structure_ [] []).map CallSite.path).Nodup := sitesOf_nodup
  have filled : ∀ site ∈ sitesOf found (found.keys.length + 1) structure_ [] [], site.path ≠ [] := by
    intro site member
    obtain ⟨index, rest, same⟩ := path_of_mem_sitesOf member
    rw [same]
    exact List.cons_ne_nil _ _
  rw [key_of_describes described]
  apply List.pairwise_map.mpr
  apply List.Pairwise.imp_of_mem _ (List.pairwise_map.mp apart)
  intro first second one two different same
  exact different (expansionKey_injective (filled first one) (filled second two) same)

/-- A graph that calls itself, and one reference to a graph that does not exist. -/
def loopDocument : List PublishedGraph :=
  [⟨"root", ⟨[⟨"spin", some "loop"⟩, ⟨"ghost", some "missing"⟩], [], ["spin"], []⟩⟩,
    ⟨"loop", ⟨[⟨"again", some "loop"⟩], [], ["again"], []⟩⟩]

theorem expansions_ok_loop : ∃ found entries,
    referencedSubgraphs loopDocument ⟨[⟨"spin", some "loop"⟩, ⟨"ghost", some "missing"⟩], [], ["spin"], []⟩ = .ok found ∧
    expansions (fun _ => []) (some ⟨[⟨"spin", some "loop"⟩, ⟨"ghost", some "missing"⟩], [], ["spin"], []⟩) found =
      .ok entries ∧
    Expanded (fun _ => []) loopDocument ⟨[⟨"spin", some "loop"⟩, ⟨"ghost", some "missing"⟩], [], ["spin"], []⟩ found
      entries :=
  expansions_ok (fun _ => []) loopDocument _ (by decide) (by
    intro graph member
    rw [loopDocument, List.mem_cons, List.mem_singleton] at member
    rcases member with rfl | rfl
    · exact ⟨by decide, by decide, by decide⟩
    · exact ⟨by decide, by decide, by decide⟩)

end Cordboard.Presentation
