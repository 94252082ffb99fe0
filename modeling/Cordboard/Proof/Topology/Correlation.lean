import Cordboard.Proof.Registry.History
import Cordboard.Proof.Topology.Freshness

namespace Cordboard.Topology
open Data Connections Url Viewer

/-- The association names this graph of the document. -/
def Names (associated : String → Option String) (graphId : String) (published : List DocumentGraph)
    (documentGraphId : String) : Prop :=
  associated documentGraphId = some graphId ∧ documentGraphId ∈ published.map DocumentGraph.id

/-- The only graph is selected. Among several graphs the association must name exactly one. -/
inductive Selects (associated : String → Option String) (graphId : String) (published : List DocumentGraph)
    (graph : DocumentGraph) : Prop
  | single (only : published = [graph])
  | associated (several : published.length ≠ 1) (named : graphId ≠ "")
      (once : ∀ documentGraphId, Names associated graphId published documentGraphId ↔ documentGraphId = graph.id)
      (last : (published.reverse.find? fun other => other.id = graph.id) = some graph)

/-- A filter of distinct items leaves one item when exactly one item passes. -/
theorem filter_singleton_iff {A : Type} {items : List A} (distinct : items.Nodup) {keep : A → Bool} {item : A} :
    items.filter keep = [item] ↔ ∀ other, other ∈ items ∧ keep other = true ↔ other = item := by
  constructor
  · intro single other
    rw [← List.mem_filter, single, List.mem_singleton]
  · intro once
    apply List.perm_singleton.mp
    apply (List.perm_ext_iff_of_nodup (distinct.filter _) (List.nodup_singleton _)).mpr
    intro other
    rw [List.mem_filter, List.mem_singleton]
    exact once other

/-- Exactly one entry of the map names a graph of the document. -/
theorem resolveMultiGraph_iff {published : List DocumentGraph} {graphId : String} {graphMap : Dict String String}
    {graph : DocumentGraph} :
    resolveMultiGraph published graphId graphMap = some graph ↔
      graphId ≠ "" ∧ (∀ documentGraphId, Names graphMap.get? graphId published documentGraphId ↔
        documentGraphId = graph.id) ∧ (published.reverse.find? fun other => other.id = graph.id) = some graph := by
  have distinct := List.Nodup.of_map Prod.fst graphMap.distinct
  have names (item : String × String) :
      (item ∈ graphMap.items ∧ (item.2 = graphId && published.any fun graph => graph.id = item.1) = true) ↔
        Names graphMap.get? graphId published item.1 ∧ item.2 = graphId := by
    rw [Names, Dict.get?_eq_some_iff, Bool.and_eq_true, decide_eq_true_eq, List.any_eq_true, List.mem_map]
    simp only [decide_eq_true_eq]
    constructor
    · rintro ⟨member, rfl, found⟩
      exact ⟨⟨member, found⟩, rfl⟩
    · rintro ⟨⟨member, found⟩, rfl⟩
      exact ⟨member, rfl, found⟩
  unfold resolveMultiGraph
  by_cases empty : graphId = ""
  · rw [if_pos empty]
    constructor
    · intro absurd
      cases absurd
    · intro ⟨named, _⟩
      exact absurd empty named
  · rw [if_neg empty]
    constructor
    · intro found
      split at found
      · rename_i item single
        have once := (filter_singleton_iff distinct).mp single
        have same : graph.id = item.1 := by
          have passed := List.find?_some found
          exact of_decide_eq_true passed
        refine ⟨empty, fun documentGraphId => ?_, by rw [same]; exact found⟩
        have entry := once (documentGraphId, graphId)
        have own := (once item).mpr rfl
        rw [names] at entry own
        constructor
        · intro named
          rw [same, ← entry.mp ⟨named, rfl⟩]
        · intro equal
          rw [equal, same]
          exact own.1
      · cases found
    · intro ⟨_, once, last⟩
      have single : (graphMap.items.filter fun item =>
          item.2 = graphId && published.any fun graph => graph.id = item.1) = [(graph.id, graphId)] := by
        apply (filter_singleton_iff distinct).mpr
        intro item
        rw [names, once, Prod.ext_iff]
      rw [single]
      exact last

/-- The graph that the viewer resolves. -/
def resolved (published : List DocumentGraph) (graphId : String) (graphMap : Dict String String) :
    Option DocumentGraph :=
  match published with
  | [graph] => some graph
  | published => resolveMultiGraph published graphId graphMap

/-- The resolved graph is the selected one. -/
theorem resolved_iff {published : List DocumentGraph} {graphId : String} {graphMap : Dict String String}
    {graph : DocumentGraph} :
    resolved published graphId graphMap = some graph ↔ Selects graphMap.get? graphId published graph := by
  by_cases several : published.length ≠ 1
  · have same : resolved published graphId graphMap = resolveMultiGraph published graphId graphMap := by
      unfold resolved
      split
      · exact absurd rfl several
      · rfl
    rw [same, resolveMultiGraph_iff]
    constructor
    · intro ⟨named, once, last⟩
      exact .associated several named once last
    · intro selects
      cases selects with
      | single only => exact absurd (by rw [only]; rfl) several
      | associated _ named once last => exact ⟨named, once, last⟩
  · rw [not_not, List.length_eq_one_iff] at several
    obtain ⟨only, rfl⟩ := several
    constructor
    · intro same
      exact .single (by rw [Option.some.inj same])
    · intro selects
      cases selects with
      | single same => exact congrArg some (List.singleton_inj.mp same)
      | associated several => exact absurd rfl several

section
variable {published : List DocumentGraph} {warnings : List String} {graphId : String} {graphMap : Dict String String}

theorem correlateTopology_some {graph : DocumentGraph} (found : resolved published graphId graphMap = some graph) :
    correlateTopology (some (.current ⟨published, warnings⟩)) graphId graphMap =
      ⟨.current, sortTexts graph.nodeIds, warnings, true⟩ := by
  rcases published with _ | ⟨first, _ | ⟨second, rest⟩⟩
  · simp only [resolved] at found
    simp only [correlateTopology, found]
  · obtain rfl := Option.some.inj found
    rfl
  · simp only [resolved] at found
    simp only [correlateTopology, found]

theorem correlateTopology_none (absent : resolved published graphId graphMap = none) :
    (correlateTopology (some (.current ⟨published, warnings⟩)) graphId graphMap).correlated = false ∧
      (correlateTopology (some (.current ⟨published, warnings⟩)) graphId graphMap).nodeIds = [] := by
  rcases published with _ | ⟨first, _ | ⟨second, rest⟩⟩
  · simp only [resolved] at absent
    simp only [correlateTopology, absent, and_self]
  · cases absent
  · simp only [resolved] at absent
    simp only [correlateTopology, absent, and_self]

/-- A current document correlates exactly when it selects a graph, and then it shows the Nodes of that graph. -/
theorem correlated_current {nodeIds : List String} :
    ((correlateTopology (some (.current ⟨published, warnings⟩)) graphId graphMap).correlated = true ∧
        (correlateTopology (some (.current ⟨published, warnings⟩)) graphId graphMap).nodeIds = nodeIds) ↔
      ∃ graph, Selects graphMap.get? graphId published graph ∧ nodeIds = sortTexts graph.nodeIds := by
  simp only [← resolved_iff]
  cases found : resolved published graphId graphMap with
  | none => simp [correlateTopology_none found]
  | some graph => simp [correlateTopology_some found, eq_comm]

end

/-- The last accepted association of a document graph since the last registration. -/
def association (past : List Command) (documentGraphId : String) : Option String :=
  (past.reverse.takeWhile fun command => !command.isAdd).findSome? (Command.mapped documentGraphId)

theorem association_amended {past : List Command} {alias_ : String} {record : Record} {registration : Registration}
    {earlier later : List Command} (amended : Amended past alias_ record registration earlier later) :
    record.registered.graphMap.get? = association past := by
  funext documentGraphId
  have since : (past.reverse.takeWhile fun command => !command.isAdd) = later.reverse := by
    rw [amended.past, List.reverse_append, List.reverse_cons, List.append_assoc, List.takeWhile_append_of_pos]
    · rw [List.singleton_append, List.takeWhile_cons_of_neg (by simp [Registration.command, Command.isAdd]),
        List.append_nil]
    · intro command member
      rw [amended.last command (List.mem_reverse.mp member)]
      rfl
  rw [association, since, ← amended.graphMap]
  rfl

/-- A check without a valid document shows no graph. -/
theorem judged_none {last : Option Snapshot} {reading : TopologyReading} (read : reading.document = none)
    {graphId : String} {graphMap : Dict String String} {correlation : Correlation}
    (shown : correlate (judged last reading) graphId graphMap = .ok correlation) : correlation.correlated = false := by
  rw [correlate, FreshnessCheck.shown, judged, read] at shown
  cases status : reading.status <;> rw [status] at shown <;> obtain rfl := Except.ok.inj shown <;> rfl

/-- A check with a valid document shows a graph only when the document did not change. -/
theorem judged_some {last : Option Snapshot} {reading : TopologyReading} {document : Document}
    (read : reading.document = some document) {graphId : String} {graphMap : Dict String String}
    {correlation : Correlation} (shown : correlate (judged last reading) graphId graphMap = .ok correlation) :
    (correlation.correlated = false ∧ ∃ snapshot, last = some snapshot ∧
        snapshot.structureHash ≠ document.structureHash) ∨
      ((∀ snapshot, last = some snapshot → snapshot.structureHash = document.structureHash) ∧
        ∃ warnings, correlation =
          correlateTopology (some (.current ⟨document.published, warnings⟩)) graphId graphMap) := by
  have confirmed : ∀ check : FreshnessCheck, (check.status = .noSnapshot ∨ check.status = .unchanged) →
      check.reading.document = some document → correlate check graphId graphMap = .ok correlation →
      ∃ warnings, correlation = correlateTopology (some (.current ⟨document.published, warnings⟩)) graphId graphMap := by
    intro check status held done
    obtain ⟨freshness, seen, done⟩ := bind_ok.mp done
    rw [FreshnessCheck.shown, held] at seen
    rcases status with status | status <;> rw [status] at seen <;> obtain ⟨warnings, _, seen⟩ := bind_ok.mp seen <;>
      exact ⟨warnings, by rw [← Except.ok.inj done, ← Except.ok.inj seen]⟩
  cases last with
  | none =>
      right
      refine ⟨fun snapshot absent => (by cases absent), confirmed _ (.inl ?_) read shown⟩
      rw [judged, read]
      rfl
  | some snapshot =>
      by_cases same : snapshot.structureHash = document.structureHash
      · right
        refine ⟨fun other held => ?_, confirmed _ (.inr ?_) read shown⟩
        · rw [← Option.some.inj held]
          exact same
        · rw [judged, read]
          simp [verdict, same]
      · left
        refine ⟨?_, snapshot, rfl, same⟩
        rw [correlate, FreshnessCheck.shown, judged, read] at shown
        simp only [Option.map_some, Option.getD_some, verdict, ne_eq, same, not_false_eq_true, if_true] at shown
        obtain rfl := Except.ok.inj shown
        rfl

/-- Each document has two graphs and one of them has a Node. -/
def twoGraphs : Schema := fun raw =>
  .ok ⟨raw, "one", [⟨"main", [⟨"draft", []⟩], [], none⟩, ⟨"side", [], [], none⟩], [], []⟩

def mapping : List Command := [.add "local" "http://h" none none none false, .graphMap "local" "main" "writer"]

def mapped : Record := ⟨"http://h", none, none, none, some (Dict.empty.set "main" "writer")⟩

theorem association_mapping (documentGraphId : String) :
    association mapping documentGraphId = if "main" = documentGraphId then some "writer" else none := by
  unfold association
  by_cases same : "main" = documentGraphId <;> simp [mapping, Command.isAdd, Command.mapped, same]

end Cordboard.Topology
