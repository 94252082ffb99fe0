import Cordboard.Proof.View.Entries
import Cordboard.Proof.View.LosslessTree

namespace Cordboard.Viewer
open Data Archive

/-- The connections advertise these pairs of an alias and a Graph. -/
def advertised (connections : Dict String Probed) : List (String × String) :=
  connections.items.flatMap fun item => item.2.graphs.map fun graphId => (item.1, graphId)

/-- The connections that advertise one Graph. -/
def advertisers (connections : Dict String Probed) (graphId : String) : List (String × Probed) :=
  connections.items.filter fun item => item.2.graphs.contains graphId

/-- The entry of a connection shows this pair. -/
def GraphView.pair (graph : GraphView) : Option (String × String) :=
  graph.deploymentAlias.map fun alias_ => (alias_, graph.graphId)

/-- The live views of a Graph whose Runs are not recorded. -/
def unrecorded (runs : List RunRecord) (live : LiveViews) : List LiveView :=
  (live.views.items.map Prod.snd).filter fun view =>
    view.graphId.any (fun graphId => graphId ≠ "") && !(runs.map RunRecord.runId).contains view.runId

/-- The catalog places each Run once, and guesses no connection for a Run. -/
structure Conserved (connections : Dict String Probed) (runs : List RunRecord) (live : LiveViews)
    (catalog : List GraphView) : Prop where
  recorded : (catalog.flatMap GraphView.runs).Perm runs
  live : (catalog.flatMap GraphView.liveRuns).Perm (unrecorded runs live)
  apart : ∀ graph ∈ catalog, ∀ view ∈ graph.liveRuns, ∀ run ∈ runs, view.runId ≠ run.runId
  own : ∀ graph ∈ catalog, (∀ run ∈ graph.runs, run.graphId = graph.graphId) ∧
    ∀ view ∈ graph.liveRuns, view.graphId = some graph.graphId
  once : (catalog.filterMap GraphView.pair).Perm (advertised connections)
  guessed : ∀ graph ∈ catalog, graph.deploymentAlias ≠ none → 1 < (advertisers connections graph.graphId).length →
    graph.runs = [] ∧ graph.liveRuns = []

section
variable {A : Type} {connections : Dict String Probed} {topology : Dict String Freshness} {groups : Groups}
  {runs : List RunRecord} {live : LiveViews} {graphId : String}

/-- The entries of a Graph share out what the Graph has. -/
theorem entries_read {read : GraphView → List A} {own : List A} (alone : read (unconnectedEntry groups graphId).2 = own)
    (connected : ∀ connection, read (connectionEntry topology groups graphId connection).2 =
      if isAmbiguous groups graphId then [] else own)
    (several : read (ambiguousEntry groups graphId).2 = own)
    (some_ : own ≠ [] → (!(groups.runs.members graphId).isEmpty || !(groups.live.members graphId).isEmpty) = true) :
    (graphEntries topology groups graphId).flatMap (fun item => read item.2) = own := by
  unfold graphEntries
  by_cases none_ : (groups.connections.members graphId).isEmpty = true
  · rw [if_pos none_, List.flatMap_singleton]
    exact alone
  · rw [if_neg none_, List.flatMap_append, List.flatMap_map]
    simp only [connected]
    by_cases many : isAmbiguous groups graphId = true
    · rw [if_pos many, many, Bool.true_and]
      have nothing : ∀ sorted : List Connected, (sorted.flatMap fun _ => ([] : List A)) = [] := by simp
      rw [nothing, List.nil_append]
      by_cases empty : own = []
      · split
        · rw [List.flatMap_singleton]
          exact several
        · rw [empty]
          rfl
      · rw [if_pos (some_ empty), List.flatMap_singleton]
        exact several
    · rw [if_neg many, if_neg (by simp [many]), List.flatMap_nil, List.append_nil]
      -- One connection is left, and it has everything.
      have length : (groups.connections.members graphId).length = 1 := by
        have few : ¬ 1 < (groups.connections.members graphId).length := by simpa [isAmbiguous] using many
        have filled : groups.connections.members graphId ≠ [] := by simpa using none_
        have positive := List.length_pos_iff.mpr filled
        omega
      obtain ⟨connection, single⟩ := List.length_eq_one_iff.mp length
      rw [single, List.mergeSort_singleton, List.flatMap_singleton]

theorem entries_pairs : ((graphEntries topology groups graphId).filterMap fun item => item.2.pair).Perm
    ((groups.connections.members graphId).map fun connection => (connection.alias_, graphId)) := by
  unfold graphEntries
  by_cases none_ : groups.connections.members graphId = []
  · rw [none_]
    exact .refl _
  · rw [if_neg (by simpa using none_), List.filterMap_append]
    have rest : ((if isAmbiguous groups graphId &&
        (!(groups.runs.members graphId).isEmpty || !(groups.live.members graphId).isEmpty) then
        [ambiguousEntry groups graphId] else []).filterMap fun item => item.2.pair) = [] := by
      split <;> rfl
    rw [rest, List.append_nil, List.filterMap_map]
    have each : ((fun item : EntryKey × GraphView => item.2.pair) ∘ connectionEntry topology groups graphId) =
        some ∘ fun connection => (connection.alias_, graphId) := rfl
    rw [each, List.filterMap_eq_map]
    exact (List.mergeSort_perm _ _).map _

theorem catalog_perm : (catalogOf connections topology runs live).Perm
    (((graphIds (groupsOf connections runs live)).flatMap
      (graphEntries topology (groupsOf connections runs live))).map Prod.snd) :=
  (List.mergeSort_perm _ _).map _

theorem graphIds_nodup (groups : Groups) : (graphIds groups).Nodup :=
  (List.mergeSort_perm _ _).nodup_iff.mpr (List.nodup_dedup _)

theorem mem_graphIds : graphId ∈ graphIds groups ↔
    graphId ∈ groups.connections.keys ∨ graphId ∈ groups.runs.keys ∨ graphId ∈ groups.live.keys := by
  rw [graphIds, sortTexts, List.mem_mergeSort, List.mem_dedup, List.mem_append, List.mem_append, or_assoc]

/-- The pairs of a Graph and a live view that the loop groups. -/
def livePairs (runs : List RunRecord) (live : LiveViews) : List (String × LiveView) :=
  live.views.items.filterMap fun item =>
    if (runs.map RunRecord.runId).contains item.1 then none
    else match item.2.graphId with
      | some graphId => if graphId = "" then none else some (graphId, item.2)
      | none => none

theorem livePairs_views : (livePairs runs live).map Prod.snd = unrecorded runs live := by
  rw [livePairs, List.map_filterMap, unrecorded, List.filter_map, ← List.filterMap_eq_filter, List.map_filterMap]
  apply List.filterMap_congr
  intro item member
  have keyed := live.keyed item member
  simp only [Function.comp_apply, Option.guard, keyed]
  cases (runs.map RunRecord.runId).contains item.1 with
  | true => simp
  | false =>
      cases item.2.graphId with
      | none => simp
      | some graphId =>
          by_cases blank : graphId = ""
          · simp [blank]
          · simp [blank]

theorem mem_livePairs {view : LiveView} (member : (graphId, view) ∈ livePairs runs live) :
    view.graphId = some graphId := by
  obtain ⟨item, _, found⟩ := List.mem_filterMap.mp member
  split at found
  · cases found
  · split at found
    · rename_i named
      split at found
      · cases found
      · obtain ⟨rfl, rfl⟩ := Prod.mk.inj (Option.some.inj found)
        exact named
    · cases found

theorem live_members : ((liveByGraph runs live).members graphId).Perm
    ((Dict.group (livePairs runs live)).members graphId) := by
  unfold Dict.members liveByGraph
  rw [Dict.get?_mapValues]
  show ((((Dict.group (livePairs runs live)).get? graphId).map _).getD []).Perm _
  cases (Dict.group (livePairs runs live)).get? graphId with
  | none => exact .refl _
  | some views => exact List.mergeSort_perm _ _

theorem live_group {view : LiveView} (member : view ∈ (liveByGraph runs live).members graphId) :
    (graphId, view) ∈ livePairs runs live := Dict.mem_members_group.mp (live_members.mem_iff.mp member)

theorem run_group {run : RunRecord} (member : run ∈ (runsByGraph runs).members graphId) :
    run.graphId = graphId := by
  obtain ⟨_, _, same⟩ := List.mem_map.mp (Dict.mem_members_group.mp member)
  obtain ⟨named, rfl⟩ := Prod.mk.inj same
  exact named

theorem mem_keys_liveByGraph : graphId ∈ (liveByGraph runs live).keys ↔ graphId ∈ (livePairs runs live).map Prod.fst := by
  rw [← Dict.mem_keys_group, liveByGraph, mem_keys_iff, mem_keys_iff, Dict.get?_mapValues, Option.isSome_map]
  rfl

/-- Each Graph with a Run, a live view, or a connection is visited once. -/
theorem visits_all : (∀ run ∈ runs, run.graphId ∈ graphIds (groupsOf connections runs live)) ∧
    (∀ pair ∈ livePairs runs live, pair.1 ∈ graphIds (groupsOf connections runs live)) ∧
    ∀ pair ∈ connections.items.flatMap (fun item => item.2.graphs.map fun graphId =>
        (graphId, (⟨item.1, item.2.endpoint, item.2.reachable, item.2.graphMap⟩ : Connected))),
      pair.1 ∈ graphIds (groupsOf connections runs live) := by
  refine ⟨?_, ?_, ?_⟩
  · intro run member
    exact mem_graphIds.mpr (.inr (.inl (Dict.mem_keys_group.mpr
      (List.mem_map.mpr ⟨_, List.mem_map_of_mem member, rfl⟩))))
  · intro pair member
    exact mem_graphIds.mpr (.inr (.inr (mem_keys_liveByGraph.mpr (List.mem_map_of_mem member))))
  · intro pair member
    exact mem_graphIds.mpr (.inl (Dict.mem_keys_group.mpr (List.mem_map_of_mem member)))

/-- What the entries of each Graph share out is shared out by the catalog. -/
theorem catalog_read {read : GraphView → List A} {own : String → List A}
    (each : ∀ graphId, (graphEntries topology (groupsOf connections runs live) graphId).flatMap
      (fun item => read item.2) = own graphId) :
    ((catalogOf connections topology runs live).flatMap read).Perm
      ((graphIds (groupsOf connections runs live)).flatMap own) := by
  refine (catalog_perm.flatMap_right read).trans ?_
  rw [List.flatMap_map, List.flatMap_assoc]
  simp only [each]
  exact .refl _

theorem catalog_runs : ((catalogOf connections topology runs live).flatMap GraphView.runs).Perm runs := by
  have shared := @catalog_read RunRecord connections topology runs live GraphView.runs
    (fun graphId => (groupsOf connections runs live).runs.members graphId) fun graphId =>
      entries_read rfl (fun _ => rfl) rfl fun some_ => by simp [some_]
  have grouped := Dict.members_perm (runs.map fun run => (run.graphId, run))
    (graphIds_nodup (groupsOf connections runs live))
    (fun pair member => by
      obtain ⟨run, inside, rfl⟩ := List.mem_map.mp member
      exact visits_all.1 run inside) fun _ run => run
  simp only [List.map_id', List.map_map] at grouped
  refine shared.trans (grouped.trans (.of_eq ?_))
  exact List.map_id runs

theorem catalog_live :
    ((catalogOf connections topology runs live).flatMap GraphView.liveRuns).Perm (unrecorded runs live) := by
  have shared := @catalog_read LiveView connections topology runs live GraphView.liveRuns
    (fun graphId => (groupsOf connections runs live).live.members graphId) fun graphId =>
      entries_read rfl (fun _ => rfl) rfl fun some_ => by simp [some_]
  have grouped := Dict.members_perm (livePairs runs live) (graphIds_nodup (groupsOf connections runs live))
    (fun pair member => visits_all.2.1 pair member) fun _ view => view
  simp only [List.map_id'] at grouped
  refine shared.trans (.trans (List.Perm.flatMap_left _ fun graphId _ => live_members) ?_)
  rw [← livePairs_views]
  exact grouped

theorem catalog_pairs :
    ((catalogOf connections topology runs live).filterMap GraphView.pair).Perm (advertised connections) := by
  have grouped := Dict.members_perm _ (graphIds_nodup (groupsOf connections runs live))
    (fun pair member => visits_all.2.2 pair member) fun graphId connection => (connection.alias_, graphId)
  refine (catalog_perm.filterMap _).trans ?_
  rw [List.filterMap_map, List.filterMap_flatMap]
  refine (List.Perm.flatMap_left _ fun graphId _ => entries_pairs).trans (grouped.trans (.of_eq ?_))
  rw [List.map_flatMap, advertised]
  simp only [List.map_map]
  rfl

/-- A connection that advertises each Graph once is counted once. -/
theorem members_length (distinct : ∀ item ∈ connections.items, item.2.graphs.Nodup) (graphId : String) :
    ((connectionsByGraph connections).members graphId).length = (advertisers connections graphId).length := by
  rw [connectionsByGraph, Dict.members_group, List.length_map, List.filter_flatMap, advertisers]
  generalize connections.items = items at distinct ⊢
  induction items with
  | nil => rfl
  | cons item rest ih =>
      obtain ⟨own, others⟩ := List.forall_mem_cons.mp distinct
      rw [List.flatMap_cons, List.length_append, ih others, List.filter_map, List.length_map]
      have single : (item.2.graphs.filter ((fun pair : String × Connected => decide (graphId = pair.1)) ∘ fun graphId =>
          (graphId, ⟨item.1, item.2.endpoint, item.2.reachable, item.2.graphMap⟩))).length =
          if item.2.graphs.contains graphId then 1 else 0 := by
        rw [← List.countP_eq_length_filter]
        show item.2.graphs.countP (fun other => decide (graphId = other)) = _
        have counted : item.2.graphs.countP (fun other => other == graphId) = if graphId ∈ item.2.graphs then 1 else 0 :=
          own.count
        simpa [eq_comm (a := graphId), beq_eq_decide] using counted
      rw [single, List.filter_cons]
      split
      · rw [List.length_cons, Nat.add_comm]
      · rw [Nat.zero_add]

theorem mem_unrecorded {view : LiveView} (member : view ∈ unrecorded runs live) : ∀ run ∈ runs, view.runId ≠ run.runId := by
  intro run listed same
  obtain ⟨_, kept⟩ := List.mem_filter.mp member
  have absent := (Bool.and_eq_true_iff.mp kept).2
  have present : (runs.map RunRecord.runId).contains view.runId = true :=
    List.contains_iff_mem.mpr (same ▸ List.mem_map_of_mem listed)
  rw [present] at absent
  cases absent

/-- A catalog of a tree conserves its Runs. -/
theorem catalog_conserved (distinct : ∀ item ∈ connections.items, item.2.graphs.Nodup) :
    Conserved connections runs live (catalogOf connections topology runs live) where
  recorded := catalog_runs
  live := catalog_live
  once := catalog_pairs
  apart graph member view inside :=
    mem_unrecorded (catalog_live.mem_iff.mp (List.mem_flatMap.mpr ⟨graph, member, inside⟩))
  own graph member := by
    have shared : ∀ graphId, (∀ run ∈ (groupsOf connections runs live).runs.members graphId, run.graphId = graphId) ∧
        ∀ view ∈ (groupsOf connections runs live).live.members graphId, view.graphId = some graphId :=
      fun graphId => ⟨fun run inside => run_group inside, fun view inside => mem_livePairs (live_group inside)⟩
    cases mem_catalogOf member with
    | unconnected graphId none_ => exact shared graphId
    | ambiguous graphId several => exact shared graphId
    | connection graphId connection advertises =>
        constructor
        · intro run inside
          have listed : run ∈ if isAmbiguous (groupsOf connections runs live) graphId then []
              else (groupsOf connections runs live).runs.members graphId := inside
          split at listed
          · cases listed
          · exact (shared graphId).1 run listed
        · intro view inside
          have listed : view ∈ if isAmbiguous (groupsOf connections runs live) graphId then []
              else (groupsOf connections runs live).live.members graphId := inside
          split at listed
          · cases listed
          · exact (shared graphId).2 view listed
  guessed graph member connected several := by
    cases mem_catalogOf member with
    | unconnected graphId none_ => exact absurd rfl connected
    | ambiguous graphId many => exact absurd rfl connected
    | connection graphId connection advertises =>
        have many : isAmbiguous (groupsOf connections runs live) graphId = true := by
          rw [isAmbiguous, groupsOf, members_length distinct]
          exact decide_eq_true several
        exact ⟨if_pos many, if_pos many⟩

end

/-- Two connections advertise the Graph of the archive. -/
def sharedConnections : Dict String Probed :=
  (Dict.empty.set "local" ⟨"http://127.0.0.1:1", true, ["graph"], Dict.empty⟩).set "copy"
    ⟨"http://127.0.0.1:2", true, ["graph"], Dict.empty⟩

/-- No Run is live. -/
def noViews : LiveViews := ⟨Dict.empty, fun _ member => by cases member⟩

/-- The Step of this archive resumes an `arrayValue`, which `query_spans` does not look at. -/
def listArchive : SpanMap :=
  [runSpan, pausedStep "02" "a" "passed" [("cord.resumed_from", .obj [("values", .arr [])])] 2 3].foldl insertSpan
    SpanMap.empty

end Cordboard.Viewer
