import Cordboard.Construction.Viewer.Catalog

namespace Cordboard.Viewer
open Data Archive

/-- An entry of the catalog has one of three forms. -/
inductive IsEntry (topology : Dict String Freshness) (groups : Groups) : GraphView → Prop where
  | unconnected (graphId : String) (none : groups.connections.members graphId = []) :
      IsEntry topology groups (unconnectedEntry groups graphId).2
  | connection (graphId : String) (connection : Connected) (advertises : connection ∈ groups.connections.members graphId) :
      IsEntry topology groups (connectionEntry topology groups graphId connection).2
  | ambiguous (graphId : String) (several : isAmbiguous groups graphId = true) :
      IsEntry topology groups (ambiguousEntry groups graphId).2

section
variable {connections : Dict String Probed} {topology : Dict String Freshness} {runs : List RunRecord} {live : LiveViews}

theorem mem_graphEntries {groups : Groups} {graphId : String} {item : EntryKey × GraphView}
    (member : item ∈ graphEntries topology groups graphId) : IsEntry topology groups item.2 := by
  unfold graphEntries at member
  split at member
  · rename_i none
    rw [List.mem_singleton.mp member]
    exact .unconnected graphId (by simpa using none)
  · rcases List.mem_append.mp member with member | member
    · obtain ⟨connection, inside, rfl⟩ := List.mem_map.mp member
      exact .connection graphId connection (List.mem_mergeSort.mp inside)
    · split at member
      · rename_i several
        rw [List.mem_singleton.mp member]
        exact .ambiguous graphId ((Bool.and_eq_true _ _).mp several).1
      · cases member

theorem mem_catalogOf {graph : GraphView} (member : graph ∈ catalogOf connections topology runs live) :
    IsEntry topology (groupsOf connections runs live) graph := by
  obtain ⟨item, inside, rfl⟩ := List.mem_map.mp member
  obtain ⟨graphId, _, entry⟩ := List.mem_flatMap.mp (List.mem_mergeSort.mp inside)
  exact mem_graphEntries entry

/-- A connection stands under the Graphs that its alias advertises. -/
theorem mem_connectionsByGraph {graphId : String} {connection : Connected}
    (member : connection ∈ (connectionsByGraph connections).members graphId) :
    ∃ info, connections.get? connection.alias_ = some info ∧
      connection = ⟨connection.alias_, info.endpoint, info.reachable, info.graphMap⟩ := by
  obtain ⟨item, inside, pair⟩ := List.mem_flatMap.mp (Dict.mem_members_group.mp member)
  obtain ⟨_, _, same⟩ := List.mem_map.mp pair
  obtain ⟨_, rfl⟩ := Prod.mk.inj same
  exact ⟨item.2, (Dict.get?_eq_some_iff _ _ _).mpr inside, rfl⟩

theorem connection_unique {first second : String} {one two : Connected}
    (left : one ∈ (connectionsByGraph connections).members first)
    (right : two ∈ (connectionsByGraph connections).members second) (same : one.alias_ = two.alias_) : one = two := by
  obtain ⟨info, found, shape⟩ := mem_connectionsByGraph left
  obtain ⟨other, also, form⟩ := mem_connectionsByGraph right
  rw [same] at found
  obtain rfl := Option.some.inj (found.symm.trans also)
  rw [shape, form, same]

/-- The alias, the Graph, and the mark of ambiguity tell the entries of a catalog apart. -/
theorem entry_unique {first second : GraphView} (one : first ∈ catalogOf connections topology runs live)
    (two : second ∈ catalogOf connections topology runs live) (sameAlias : first.deploymentAlias = second.deploymentAlias)
    (sameGraph : first.graphId = second.graphId)
    (sameMark : first.deploymentAlias = none →
      (first.topologyStatus = .ambiguous ↔ second.topologyStatus = .ambiguous)) : first = second := by
  have left := mem_catalogOf one
  have right := mem_catalogOf two
  cases left with
  | unconnected graphId none =>
      cases right with
      | unconnected other _ =>
          obtain rfl : graphId = other := sameGraph
          rfl
      | connection other connection advertises => cases sameAlias
      | ambiguous other several => cases (sameMark rfl).mpr rfl
  | connection graphId connection advertises =>
      cases right with
      | unconnected other _ => cases sameAlias
      | connection other second advertises' =>
          obtain rfl : graphId = other := sameGraph
          obtain rfl := connection_unique advertises advertises' (Option.some.inj sameAlias)
          rfl
      | ambiguous other several => cases sameAlias
  | ambiguous graphId several =>
      cases right with
      | unconnected other _ => cases (sameMark rfl).mp rfl
      | connection other connection advertises => cases sameAlias
      | ambiguous other _ =>
          obtain rfl : graphId = other := sameGraph
          rfl

end

end Cordboard.Viewer
