import Cordboard.Construction.Web.Routes
import Cordboard.Proof.View.Entries
import Cordboard.Proof.Archive.Checked

namespace Cordboard.Web
open Data Data.Percent Viewer

/-- The entry holds evidence that no single connection owns. -/
def marked (graph : GraphView) : Bool := graph.deploymentAlias.isNone && graph.topologyStatus = .ambiguous

/-- These texts lead to an entry. -/
def segments (graph : GraphView) : List String :=
  match graph.deploymentAlias with
  | some alias_ => ["connections", alias_, "graphs", graph.graphId]
  | none => "graphs" :: graph.graphId :: if graph.topologyStatus = .ambiguous then ["ambiguous"] else []

/-- The path quotes each text after a slash. -/
def pathOf (texts : List String) : List Char := texts.flatMap fun text => '/' :: (quote text).toList

section
variable {replaced : List UInt8 → String} {graph : GraphView} {run : AnyRun}

theorem pathOf_split (texts : List String) :
    ['/'].intercalate ([] :: texts.map fun text => (quote text).toList) = pathOf texts := by
  induction texts with
  | nil => rfl
  | cons text rest ih =>
      rw [List.map_cons, List.intercalate_cons_cons, List.nil_append]
      cases rest with
      | nil => simp [pathOf]
      | cons next rest =>
          rw [List.map_cons, List.intercalate_cons_cons] at ih ⊢
          rw [pathOf, List.flatMap_cons]
          change _ = _ ++ pathOf (next :: rest)
          rw [← ih]
          simp

/-- The parts of a quoted path are its texts. -/
theorem pathParts_pathOf {path : String} {texts : List String} (built : path.toList = pathOf texts) :
    pathParts replaced path = texts := by
  have apart : ∀ part ∈ [] :: texts.map (fun text => (quote text).toList), '/' ∉ part := by
    intro part member
    rcases List.mem_cons.mp member with rfl | member
    · exact List.not_mem_nil
    · obtain ⟨text, _, rfl⟩ := List.mem_map.mp member
      exact slash_not_mem_quote text
  unfold pathParts
  rw [built, ← pathOf_split, List.splitOn_intercalate '/' apart (List.cons_ne_nil _ _)]
  simp [Function.comp_def]

theorem quote_word (word : String) (plain : (quote word == word) = true) : (quote word).toList = word.toList := by
  rw [eq_of_beq plain]

theorem graphUrl_path : (graphUrl graph).toList = pathOf (segments graph) := by
  have connections := quote_word "connections" (by decide)
  have graphs := quote_word "graphs" (by decide)
  have ambiguous := quote_word "ambiguous" (by decide)
  unfold graphUrl segments
  cases graph.deploymentAlias with
  | some alias_ => simp [pathOf, connections, graphs]
  | none =>
      by_cases mark : graph.topologyStatus = .ambiguous
      · simp [pathOf, graphs, ambiguous, mark]
      · simp [pathOf, graphs, mark]

theorem runUrl_path : (runUrl graph run).toList = pathOf (segments graph ++ ["runs", run.runId]) := by
  have runs := quote_word "runs" (by decide)
  rw [runUrl, String.toList_append, String.toList_append, graphUrl_path]
  simp [pathOf, runs]

theorem eventsUrl_path : (runUrl graph run ++ "/events").toList = pathOf (segments graph ++ ["runs", run.runId, "events"]) := by
  have events := quote_word "events" (by decide)
  rw [String.toList_append, runUrl_path]
  simp [pathOf, events]

/-- Two entries with equal texts agree on their alias, their Graph, and their mark. -/
theorem segments_inj {first second : GraphView} (same : segments first = segments second) :
    first.deploymentAlias = second.deploymentAlias ∧ first.graphId = second.graphId ∧
      (first.deploymentAlias = none → (first.topologyStatus = .ambiguous ↔ second.topologyStatus = .ambiguous)) := by
  unfold segments at same
  cases left : first.deploymentAlias with
  | some alias_ =>
      cases right : second.deploymentAlias with
      | some other =>
          rw [left, right] at same
          simp only [List.cons.injEq, true_and, and_true] at same
          refine ⟨congrArg some same.1, same.2, ?_⟩
          intro never
          cases never
      | none =>
          rw [left, right] at same
          simp only [List.cons.injEq] at same
          exact absurd same.1 (by decide)
  | none =>
      cases right : second.deploymentAlias with
      | some other =>
          rw [left, right] at same
          simp only [List.cons.injEq] at same
          exact absurd same.1 (by decide)
      | none =>
          rw [left, right] at same
          simp only [List.cons.injEq, true_and] at same
          refine ⟨rfl, same.1, fun _ => ?_⟩
          have marks := same.2
          split at marks
          · rename_i one
            split at marks
            · rename_i two
              exact iff_of_true one two
            · cases marks
          · rename_i one
            split at marks
            · cases marks
            · rename_i two
              exact iff_of_false one two

/-- The path of an entry never looks like the path of a Run. -/
theorem segments_ne_run (first second : GraphView) (runId : String) :
    segments first ≠ segments second ++ ["runs", runId] := by
  intro same
  unfold segments at same
  cases left : first.deploymentAlias with
  | some alias_ =>
      cases right : second.deploymentAlias with
      | some other => simp [left, right] at same
      | none =>
          rw [left, right] at same
          exact absurd (List.cons.inj same).1 (by decide)
  | none =>
      cases right : second.deploymentAlias with
      | some other =>
          rw [left, right] at same
          exact absurd (List.cons.inj same).1 (by decide)
      | none =>
          by_cases one : first.topologyStatus = .ambiguous <;> by_cases two : second.topologyStatus = .ambiguous <;>
            simp [left, right, one, two] at same

theorem segments_ne_word (first second : GraphView) : segments first ≠ segments second ++ ["runs"] := by
  intro same
  unfold segments at same
  cases left : first.deploymentAlias with
  | some alias_ =>
      cases right : second.deploymentAlias with
      | some other => simp [left, right] at same
      | none =>
          rw [left, right] at same
          exact absurd (List.cons.inj same).1 (by decide)
  | none =>
      cases right : second.deploymentAlias with
      | some other =>
          rw [left, right] at same
          exact absurd (List.cons.inj same).1 (by decide)
      | none =>
          by_cases one : first.topologyStatus = .ambiguous <;> by_cases two : second.topologyStatus = .ambiguous <;>
            simp [left, right, one, two] at same

/-- What the loop returns at one entry, if it returns there. -/
def answer (parts : List String) (events : Bool) (graph : GraphView) : Option Selected :=
  if parts = segments graph ∧ events = false then some ⟨some graph, none, false⟩
  else if parts = segments graph ++ ["runs", parts.getLastD ""] then
    ((allRuns graph).find? fun run => run.runId = parts.getLastD "").map fun run => ⟨some graph, some run, events⟩
  else none

/-- The three tests of the loop recognize the path of a Run. -/
theorem run_pattern {parts start : List String} : (parts.take start.length = start && parts.length = start.length + 2 &&
    parts.getD (parts.length - 2) "" = "runs") = true ↔ parts = start ++ ["runs", parts.getLastD ""] := by
  simp only [Bool.and_eq_true, decide_eq_true_eq]
  constructor
  · rintro ⟨⟨taken, size⟩, word⟩
    have rest : (parts.drop start.length).length = 2 := by rw [List.length_drop]; omega
    obtain ⟨one, two, pair⟩ := List.length_eq_two.mp rest
    have whole : parts = start ++ [one, two] := by rw [← pair, ← taken, List.length_take, size]; simp
    have place : parts.length - 2 = start.length := by omega
    rw [place, whole] at word
    have first : one = "runs" := by simpa using word
    rw [whole, first]
    simp
  · intro whole
    have size : parts.length = start.length + 2 := by
      rw [whole]
      simp
    have place : parts.length - 2 = start.length := by omega
    refine ⟨⟨?_, size⟩, ?_⟩
    · rw [whole]
      simp
    · rw [place, whole]
      simp

theorem selectGraph_eq (parts : List String) (events : Bool) (catalog : List GraphView) :
    selectGraph replaced parts events catalog = catalog.findSome? (answer parts events) := by
  induction catalog with
  | nil => rfl
  | cons graph rest ih =>
      rw [selectGraph, List.findSome?_cons, pathParts_pathOf graphUrl_path, ih, answer]
      by_cases exact_ : parts = segments graph ∧ events = false
      · rw [if_pos (by simp [exact_.1, exact_.2]), if_pos exact_]
      · rw [if_neg (by simpa using exact_), if_neg exact_]
        by_cases pattern : parts = segments graph ++ ["runs", parts.getLastD ""]
        · rw [if_pos (run_pattern.mpr pattern), if_pos pattern]
          cases (allRuns graph).find? fun run => run.runId = parts.getLastD "" <;> rfl
        · rw [if_neg fun holds => pattern (run_pattern.mp holds), if_neg pattern]

/-- The first answer is the only one. -/
theorem findSome_unique {A B : Type} {items : List A} {reply : A → Option B} {item : A} {value : B}
    (member : item ∈ items) (found : reply item = some value)
    (only : ∀ other ∈ items, reply other = none ∨ reply other = some value) : items.findSome? reply = some value := by
  induction items with
  | nil => cases member
  | cons first rest ih =>
      rw [List.findSome?_cons]
      rcases only first List.mem_cons_self with none | some_
      · rw [none]
        rcases List.mem_cons.mp member with rfl | member
        · rw [none] at found
          cases found
        · exact ih member fun other inside => only other (List.mem_cons_of_mem _ inside)
      · rw [some_]

theorem find_distinct {runs : List AnyRun} (distinct : (runs.map AnyRun.runId).Nodup) (member : run ∈ runs) :
    (runs.find? fun other => other.runId = run.runId) = some run := by
  induction runs with
  | nil => cases member
  | cons first rest ih =>
      rw [List.map_cons, List.nodup_cons] at distinct
      rcases List.mem_cons.mp member with rfl | member
      · simp
      · have different : first.runId ≠ run.runId := by
          intro same
          exact distinct.1 (same ▸ List.mem_map_of_mem member)
        rw [List.find?_cons_of_neg (by simpa using different)]
        exact ih distinct.2 member

theorem path_ne_root {path : String} {texts : List String} (built : path.toList = pathOf texts) (long : 2 ≤ texts.length) :
    path ≠ "/" := by
  intro same
  have root : path.toList = pathOf [""] := by
    rw [same]
    decide
  have parts := (@pathParts_pathOf (fun _ => "") path texts built).symm.trans (pathParts_pathOf root)
  rw [parts] at long
  exact absurd long (by decide)

theorem segments_long (graph : GraphView) : 2 ≤ (segments graph).length := by
  unfold segments
  split <;> simp

/-- The word after the texts tells whether the events are asked for. -/
theorem select_path {path : String} {texts : List String} (built : path.toList = pathOf texts)
    (long : 2 ≤ texts.length) (catalog : List GraphView) : select replaced catalog path =
      if texts.getLast? = some "events" then catalog.findSome? (answer texts.dropLast true)
      else catalog.findSome? (answer texts false) := by
  rw [select, if_neg (path_ne_root built long), pathParts_pathOf built, selectGraph_eq, selectGraph_eq]

section
variable {catalog : List GraphView} (unique : ∀ first ∈ catalog, ∀ second ∈ catalog, segments first = segments second →
  first = second)
include unique

theorem select_graphUrl (member : graph ∈ catalog) (named : graph.graphId = "events" → marked graph = true) :
    select replaced catalog (graphUrl graph) = some ⟨some graph, none, false⟩ := by
  have plain : (segments graph).getLast? ≠ some "events" := by
    unfold segments
    unfold marked at named
    cases alias_ : graph.deploymentAlias with
    | some owner =>
        rw [alias_] at named
        intro last
        have same : graph.graphId = "events" := by simpa using last
        cases named same
    | none =>
        rw [alias_] at named
        dsimp only
        split
        · simp
        · rename_i mark
          intro last
          have same : graph.graphId = "events" := by simpa using last
          have status : graph.topologyStatus = .ambiguous := by simpa using named same
          exact mark status
  rw [select_path graphUrl_path (segments_long graph), if_neg plain]
  apply findSome_unique member
  · rw [answer, if_pos ⟨rfl, rfl⟩]
  · intro other inside
    rw [answer]
    split
    · rename_i same
      rw [unique graph member other inside same.1]
      exact .inr rfl
    · split
      · rename_i pattern
        exact absurd pattern (segments_ne_run _ _ _)
      · exact .inl rfl

/-- The texts of a Run select the Run, with or without its events. -/
theorem answer_run (member : graph ∈ catalog) (inside : run ∈ allRuns graph)
    (distinct : ((allRuns graph).map AnyRun.runId).Nodup) (events : Bool) :
    catalog.findSome? (answer (segments graph ++ ["runs", run.runId]) events) =
      some ⟨some graph, some run, events⟩ := by
  have last : (segments graph ++ ["runs", run.runId]).getLastD "" = run.runId := by simp
  apply findSome_unique member
  · rw [answer, if_neg fun same => segments_ne_run _ _ _ same.1.symm, last, if_pos rfl, find_distinct distinct inside]
    rfl
  · intro other owner
    rw [answer, last]
    split
    · rename_i same
      exact absurd same.1.symm (segments_ne_run _ _ _)
    · split
      · rename_i pattern
        have equal := (List.append_inj' pattern rfl).1
        obtain rfl := unique graph member other owner equal
        rw [find_distinct distinct inside]
        exact .inr rfl
      · exact .inl rfl

theorem select_runUrl (member : graph ∈ catalog) (inside : run ∈ allRuns graph)
    (distinct : ((allRuns graph).map AnyRun.runId).Nodup) (named : run.runId ≠ "events") :
    select replaced catalog (runUrl graph run) = some ⟨some graph, some run, false⟩ := by
  have long := segments_long graph
  have plain : (segments graph ++ ["runs", run.runId]).getLast? ≠ some "events" := by simpa using named
  rw [select_path runUrl_path (by simp), if_neg plain]
  exact answer_run unique member inside distinct false

theorem select_eventsUrl (member : graph ∈ catalog) (inside : run ∈ allRuns graph)
    (distinct : ((allRuns graph).map AnyRun.runId).Nodup) :
    select replaced catalog (runUrl graph run ++ "/events") = some ⟨some graph, some run, true⟩ := by
  have parts : segments graph ++ ["runs", run.runId, "events"] = (segments graph ++ ["runs", run.runId]) ++ ["events"] := by
    simp
  rw [select_path eventsUrl_path (by simp), if_pos (by simp), parts, List.dropLast_concat]
  exact answer_run unique member inside distinct true

omit unique in
/-- No entry answers to a path that is too short for a Run. -/
theorem select_graph_events (catalog : List GraphView) (named : graph.graphId = "events") (plain : marked graph = false) :
    select replaced catalog (graphUrl graph) = none := by
  have last : (segments graph).getLast? = some "events" ∧ (segments graph).length ≠ 3 := by
    unfold segments
    unfold marked at plain
    cases alias_ : graph.deploymentAlias with
    | some owner => simp [named]
    | none =>
        rw [alias_] at plain
        have mark : graph.topologyStatus ≠ .ambiguous := by simpa using plain
        simp [named, mark]
  rw [select_path graphUrl_path (segments_long graph), if_pos last.1]
  apply List.findSome?_eq_none_iff.mpr
  intro other _
  have short : (segments graph).length ≤ 4 := by
    unfold segments
    split
    · simp
    · split <;> simp
  rw [answer, if_neg (by simp), if_neg]
  intro pattern
  have size := congrArg List.length pattern
  have long := segments_long other
  rw [List.length_dropLast, List.length_append] at size
  simp only [List.length_cons, List.length_nil] at size
  omega

omit unique in
theorem select_run_events (catalog : List GraphView) (named : run.runId = "events") :
    select replaced catalog (runUrl graph run) = none := by
  have parts : segments graph ++ ["runs", run.runId] = (segments graph ++ ["runs"]) ++ ["events"] := by
    rw [named]
    simp
  rw [select_path runUrl_path (by simp), parts, if_pos (by simp), List.dropLast_concat]
  apply List.findSome?_eq_none_iff.mpr
  intro other _
  rw [answer, if_neg (by simp), if_neg]
  intro pattern
  have whole : segments graph ++ ["runs"] = (segments other ++ ["runs"]) ++ [(segments graph ++ ["runs"]).getLastD ""] := by
    rw [pattern]
    simp
  exact segments_ne_word graph other (List.append_inj' whole rfl).1

end

end

/-- Each URL selects what it was made for. -/
def RoundTrips (replaced : List UInt8 → String) (catalog : List GraphView) : Prop :=
  ∀ graph ∈ catalog, select replaced catalog (graphUrl graph) = some ⟨some graph, none, false⟩ ∧
    ∀ run ∈ allRuns graph, select replaced catalog (runUrl graph run) = some ⟨some graph, some run, false⟩ ∧
      select replaced catalog (runUrl graph run ++ "/events") = some ⟨some graph, some run, true⟩

/-- The texts of its path tell an entry of a catalog from every other one. -/
theorem segments_unique {connections : Dict String Probed} {topology : Dict String Freshness} {runs : List RunRecord}
    {live : LiveViews} : ∀ first ∈ catalogOf connections topology runs live,
      ∀ second ∈ catalogOf connections topology runs live, segments first = segments second → first = second := by
  intro first one second two same
  obtain ⟨alias_, graphId, mark⟩ := segments_inj same
  exact entry_unique one two alias_ graphId mark

/-- The URLs of a catalog come back exactly when no Graph without a mark and no Run is named `events`. -/
theorem urls_round_trip (replaced : List UInt8 → String) (connections : Dict String Probed)
    (topology : Dict String Freshness) (spans : Archive.SpanMap) (live : LiveViews) (catalog : List GraphView)
    (built : buildCatalog connections topology spans live = .ok catalog)
    (distinct : ∀ graph ∈ catalog, ((allRuns graph).map AnyRun.runId).Nodup) :
    RoundTrips replaced catalog ↔ ∀ graph ∈ catalog, (graph.graphId = "events" → marked graph = true) ∧
      ∀ run ∈ allRuns graph, run.runId ≠ "events" := by
  obtain ⟨runs, _, same⟩ := bind_ok.mp built
  obtain rfl := Except.ok.inj same
  constructor
  · intro trips graph member
    constructor
    · intro named
      rw [← Bool.not_eq_false]
      intro plain
      have found := (trips graph member).1
      rw [select_graph_events _ named plain] at found
      cases found
    · intro run inside named
      have found := ((trips graph member).2 run inside).1
      rw [select_run_events _ named] at found
      cases found
  · intro named graph member
    refine ⟨select_graphUrl segments_unique member (named graph member).1, ?_⟩
    intro run inside
    exact ⟨select_runUrl segments_unique member inside (distinct graph member) ((named graph member).2 run inside),
      select_eventsUrl segments_unique member inside (distinct graph member)⟩

section Example

/-- One connection advertises a Graph with the name of the last word. -/
def eventsConnection : Dict String Probed := ⟨[("local", ⟨"http://a", true, ["events"], Dict.empty⟩)], by decide⟩

def noLive : LiveViews := ⟨Dict.empty, by simp⟩

def eventsGraph : GraphView := ⟨"events", some "local", some true, .notChecked, [], [], [], [], []⟩

theorem eventsCatalog :
    buildCatalog eventsConnection Dict.empty Archive.SpanMap.empty noLive = .ok [eventsGraph] := by
  have connections : (groupsOf eventsConnection [] noLive).connections.keys = ["events"] := by decide
  have runs : (groupsOf eventsConnection [] noLive).runs.keys = [] := rfl
  have live : (groupsOf eventsConnection [] noLive).live.keys = [] := rfl
  have ids : graphIds (groupsOf eventsConnection [] noLive) = ["events"] := by
    rw [graphIds, connections, runs, live, List.append_nil, List.append_nil]
    exact List.mergeSort_singleton _
  have none : buildExecutionTree Archive.SpanMap.empty = .ok [] := by
    change Except.ok (byStart RunRecord.startNs []) = _
    exact congrArg Except.ok List.mergeSort_nil
  have catalog : catalogOf eventsConnection Dict.empty [] noLive = [eventsGraph] := by
    rw [catalogOf, ids]
    simp [graphEntries, groupsOf, connectionsByGraph, eventsConnection, Dict.group, Dict.append, Dict.members,
      Dict.get?, Dict.set, Dict.keys, Dict.empty, isAmbiguous, connectionEntry, graphView, correlateTopology, eventsGraph]
    exact ⟨rfl, rfl⟩
  rw [buildCatalog, none]
  exact congrArg Except.ok catalog

theorem urls_round_trip_events : RoundTrips (fun _ => "") [eventsGraph] ↔
    ∀ graph ∈ [eventsGraph], (graph.graphId = "events" → marked graph = true) ∧
      ∀ run ∈ allRuns graph, run.runId ≠ "events" :=
  urls_round_trip (fun _ => "") eventsConnection Dict.empty Archive.SpanMap.empty noLive [eventsGraph] eventsCatalog
    fun graph member => by
      rw [List.mem_singleton.mp member]
      exact List.nodup_nil

/-- The page of the Graph is not found under the URL that the catalog shows for it. -/
theorem events_graph_lost :
    buildCatalog eventsConnection Dict.empty Archive.SpanMap.empty noLive = .ok [eventsGraph] ∧
    graphUrl eventsGraph = "/connections/local/graphs/events" ∧
    select (fun _ => "") [eventsGraph] (graphUrl eventsGraph) = none ∧
    ¬ RoundTrips (fun _ => "") [eventsGraph] := by
  have lost := @select_graph_events (fun _ => "") eventsGraph [eventsGraph] rfl rfl
  refine ⟨eventsCatalog, by decide, lost, ?_⟩
  intro trips
  have found := (trips eventsGraph (List.mem_singleton_self _)).1
  rw [lost] at found
  cases found

end Example

end Cordboard.Web
