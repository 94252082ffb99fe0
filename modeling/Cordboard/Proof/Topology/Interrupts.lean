import Cordboard.Construction.Topology
import Cordboard.Data.Outcome

namespace Cordboard.Topology
open Data Viewer

/-- The targets of the direct edges of a source, in order. -/
def directTargets (graph : Graph) (source : String) : List String :=
  (graph.edges.filter fun edge => edge.kind = "direct" && edge.source = source).map Presentation.Edge.target

/-- The nodes of a recognized extension that are not empty. -/
def declaredNodes (graph : Graph) : Json :=
  (recognizedExtension graph).elim (.arr []) fun extension =>
    ((extension.lookup "nodes").getD .null).orElse (.arr [])

/-- The nodes of a recognized extension are a truth value or a number. -/
def Malformed (graph : Graph) : Prop := (declaredNodes graph).number?.isSome

/-- The known branches of a recognized extension, in order. -/
def knownBranches (graph : Graph) : List (String × Json) :=
  ((iterate (declaredNodes graph)).toOption.getD []).filterMap knownBranch

/-- The warning names a source that fans out and its targets that interrupt. -/
structure Reports (graph : Graph) (warning : ParallelInterruptWarning) : Prop where
  graphId : warning.graphId = graph.id
  fansOut : 2 ≤ (directTargets graph warning.sourceNodeId).length
  targets : warning.fanoutTargetIds = sortTexts (directTargets graph warning.sourceNodeId)
  hit : warning.interruptedTargetIds =
    sortTexts ((directTargets graph warning.sourceNodeId).filter fun target => target ∈ interruptedNodes graph)
  interrupts : ∃ target ∈ directTargets graph warning.sourceNodeId, target ∈ interruptedNodes graph
  confirmed : warning.confirmed = true ↔
    (knownBranches graph).reverse.lookup warning.sourceNodeId = some (.str "all-declared")

theorem pyEq_str {value : Json} {text : String} : value.pyEq (.str text) = true ↔ value = .str text := by
  cases value <;> simp [Json.pyEq, Json.number?]

theorem orElse_arr_ne_null (value : Json) : value.orElse (.arr []) ≠ .null := by
  unfold Json.orElse
  split
  · rename_i held
    intro none
    rw [none] at held
    cases held
  · intro none
    cases none

theorem declaredNodes_ne_null (graph : Graph) : declaredNodes graph ≠ .null := by
  unfold declaredNodes
  cases recognizedExtension graph with
  | none =>
      intro none
      cases none
  | some extension => exact orElse_arr_ne_null _

/-- A value that is not `None` can be iterated unless it is a number. -/
theorem iterate_ok {value : Json} (present : value ≠ .null) :
    (∃ items, iterate value = .ok items) ↔ ¬ value.number?.isSome := by
  cases value <;> simp_all [iterate, notIterable, Json.number?]

/-- The interpretation fails on a malformed extension only, and else it holds the last known branch of each Node. -/
theorem branchInterpretation_eq (graph : Graph) :
    branchInterpretation graph = (iterate (declaredNodes graph)).map fun nodes =>
      Dict.ofPairs (nodes.filterMap knownBranch) := by
  unfold branchInterpretation declaredNodes
  cases recognizedExtension graph with
  | none => rfl
  | some extension =>
      simp only [Option.elim_some]
      cases iterate (((extension.lookup "nodes").getD .null).orElse (.arr [])) <;> rfl

theorem members_fanout (graph : Graph) (source : String) :
    (fanout graph).members source = directTargets graph source := by
  rw [fanout, Dict.members_group, directTargets, List.filter_map, List.map_map, List.filter_filter]
  congr 1
  apply List.filter_congr
  intro edge _
  simp [Function.comp_apply, Bool.and_comm, eq_comm]

theorem sortTexts_eq_nil {texts : List String} : sortTexts texts = [] ↔ texts = [] := by
  constructor
  · intro sorted
    have kept := List.mergeSort_perm texts fun first second => first ≤ second
    rw [sortTexts] at sorted
    rw [sorted] at kept
    exact List.nil_perm.mp kept
  · intro empty
    rw [empty]
    exact List.mergeSort_nil

theorem getD_pyEq_str {value : Option Json} {text : String} :
    (value.getD .null).pyEq (.str text) = true ↔ value = some (.str text) := by
  rw [pyEq_str]
  cases value <;> simp

theorem sourceWarning_source {graph : Graph} {interpretation : Dict String Json} {source : String}
    {targets : List String} {warning : ParallelInterruptWarning}
    (warned : sourceWarning graph interpretation source targets = some warning) : warning.sourceNodeId = source := by
  unfold sourceWarning at warned
  dsimp only at warned
  split at warned
  · cases warned
  split at warned
  · cases warned
  · rw [← Option.some.inj warned]

/-- The warning of a source reports it. -/
theorem sourceWarning_reports {graph : Graph} {nodes : List Json} (iterated : iterate (declaredNodes graph) = .ok nodes)
    {source : String} {warning : ParallelInterruptWarning} :
    sourceWarning graph (Dict.ofPairs (nodes.filterMap knownBranch)) source (directTargets graph source) =
        some warning ↔ Reports graph warning ∧ warning.sourceNodeId = source := by
  have branches : knownBranches graph = nodes.filterMap knownBranch := by
    rw [knownBranches, iterated]
    rfl
  have hits : (sortTexts ((directTargets graph source).filter fun target => target ∈ interruptedNodes graph)).isEmpty =
      false ↔ ∃ target ∈ directTargets graph source, target ∈ interruptedNodes graph := by
    rw [List.isEmpty_eq_false_iff, ne_eq, sortTexts_eq_nil, List.filter_eq_nil_iff]
    simp
  unfold sourceWarning
  dsimp only
  constructor
  · intro warned
    split at warned
    · cases warned
    rename_i fansOut
    split at warned
    · cases warned
    rename_i hit
    rw [Bool.not_eq_true] at hit
    obtain rfl := Option.some.inj warned
    refine ⟨⟨rfl, not_lt.mp fansOut, rfl, rfl, hits.mp hit, ?_⟩, rfl⟩
    rw [getD_pyEq_str, Dict.get?_ofPairs_last, branches]
  · rintro ⟨reports, rfl⟩
    have hit := hits.mpr reports.interrupts
    have fansOut : ¬ (directTargets graph warning.sourceNodeId).length < 2 := not_lt.mpr reports.fansOut
    have confirmed : warning.confirmed =
        (((Dict.ofPairs (nodes.filterMap knownBranch)).get? warning.sourceNodeId).getD .null).pyEq
          (.str "all-declared") := by
      rw [Bool.eq_iff_iff, getD_pyEq_str, Dict.get?_ofPairs_last, ← branches]
      exact reports.confirmed
    rw [if_neg fansOut, if_neg (by rw [hit]; exact Bool.false_ne_true), ← confirmed, ← reports.graphId,
      ← reports.targets, ← reports.hit]

/-- The warnings of a graph report its sources, each one once. -/
theorem graphWarnings_reports {graph : Graph} {warnings : List ParallelInterruptWarning}
    (warned : graphWarnings graph = .ok warnings) :
    (∀ warning, warning ∈ warnings ↔ Reports graph warning) ∧
      (warnings.map ParallelInterruptWarning.sourceNodeId).Nodup := by
  unfold graphWarnings at warned
  split at warned
  · rename_i quiet
    obtain rfl := Except.ok.inj warned
    refine ⟨fun warning => ⟨fun member => (by cases member), fun reports => ?_⟩, List.nodup_nil⟩
    obtain ⟨target, _, interrupts⟩ := reports.interrupts
    rw [List.isEmpty_iff.mp quiet] at interrupts
    cases interrupts
  · obtain ⟨interpretation, interpreted, warned⟩ := bind_ok.mp warned
    rw [branchInterpretation_eq] at interpreted
    cases iterated : iterate (declaredNodes graph) with
    | error exc =>
        rw [iterated] at interpreted
        cases interpreted
    | ok nodes =>
        rw [iterated] at interpreted
        obtain rfl := Except.ok.inj interpreted
        obtain rfl := Except.ok.inj warned
        have targets (item : String × List String) (member : item ∈ (fanout graph).items) :
            item.2 = directTargets graph item.1 := by
          have found := (Dict.get?_eq_some_iff _ item.1 item.2).mpr member
          rw [← members_fanout, Dict.members, found, Option.getD_some]
        constructor
        · intro warning
          rw [List.mem_filterMap]
          constructor
          · intro ⟨item, member, reported⟩
            rw [targets item member] at reported
            exact ((sourceWarning_reports iterated).mp reported).1
          · intro reports
            refine ⟨(warning.sourceNodeId, directTargets graph warning.sourceNodeId), ?_,
              (sourceWarning_reports iterated).mpr ⟨reports, rfl⟩⟩
            have several := reports.fansOut
            rw [← members_fanout, Dict.members] at several ⊢
            cases found : (fanout graph).get? warning.sourceNodeId with
            | none =>
                rw [found] at several
                cases several
            | some held => exact (Dict.get?_eq_some_iff _ _ _).mp found
        · apply List.Pairwise.map (R := fun first second => first.sourceNodeId ≠ second.sourceNodeId) _
            (fun _ _ apart => apart)
          apply List.Pairwise.filterMap _ _ (List.pairwise_map.mp (fanout graph).distinct)
          intro first second apart one reported two again
          rw [sourceWarning_source reported, sourceWarning_source again]
          exact apart

/-- A graph without interrupts is not asked for its extension. -/
theorem graphWarnings_error {graph : Graph} :
    (∃ exc, graphWarnings graph = .error exc) ↔ interruptedNodes graph ≠ [] ∧ Malformed graph := by
  unfold graphWarnings
  by_cases quiet : interruptedNodes graph = []
  · simp [quiet]
  · have asked : (interruptedNodes graph).isEmpty = false := List.isEmpty_eq_false_iff.mpr quiet
    have iterates := iterate_ok (declaredNodes_ne_null graph)
    rw [asked, if_neg Bool.false_ne_true, branchInterpretation_eq, Malformed]
    cases iterated : iterate (declaredNodes graph) with
    | ok nodes =>
        have sound := iterates.mp ⟨nodes, iterated⟩
        constructor
        · intro ⟨exc, failed⟩
          cases failed
        · intro ⟨_, malformed⟩
          exact absurd malformed sound
    | error exc =>
        refine ⟨fun _ => ⟨quiet, ?_⟩, fun _ => ⟨exc, rfl⟩⟩
        by_contra sound
        obtain ⟨nodes, other⟩ := iterates.mpr sound
        rw [iterated] at other
        cases other

/-- The warnings of a document report, for each graph and in the order of the document, exactly the sources that fan out
into an interrupted Node, each one once. A malformed extension of a graph with interrupts is not opaque: it fails. -/
theorem interrupts_reported (document : Document) :
    (∀ warnings, parallelInterruptWarnings document = .ok warnings →
      ∃ groups, warnings = List.flatten groups ∧ List.Forall₂ (fun group graph =>
        (∀ warning, warning ∈ group ↔ Reports graph warning) ∧
          (group.map ParallelInterruptWarning.sourceNodeId).Nodup) groups document.graphs) ∧
      ((∃ exc, parallelInterruptWarnings document = .error exc) ↔
        ∃ graph ∈ document.graphs, interruptedNodes graph ≠ [] ∧ Malformed graph) := by
  constructor
  · intro warnings warned
    obtain ⟨groups, mapped, warned⟩ := bind_ok.mp warned
    refine ⟨groups, (Except.ok.inj warned).symm, ?_⟩
    exact (forall₂_of_mapM mapped).imp fun group graph reported => graphWarnings_reports reported
  · constructor
    · intro ⟨exc, failed⟩
      by_contra sound
      have each (graph : Graph) (member : graph ∈ document.graphs) :
          ∃ group, graphWarnings graph = .ok group ∧ True := by
        cases outcome : graphWarnings graph with
        | ok group => exact ⟨group, rfl, trivial⟩
        | error other => exact absurd ⟨graph, member, graphWarnings_error.mp ⟨other, outcome⟩⟩ sound
      obtain ⟨groups, mapped, _⟩ := @mapM_forall₂ _ _ _ _ _ (fun _ _ => True) each
      rw [parallelInterruptWarnings, mapped] at failed
      cases failed
    · intro ⟨graph, member, malformed⟩
      obtain ⟨exc, failed⟩ := graphWarnings_error.mpr malformed
      cases outcome : parallelInterruptWarnings document with
      | error other => exact ⟨other, rfl⟩
      | ok warnings =>
          obtain ⟨groups, mapped, _⟩ := bind_ok.mp outcome
          obtain ⟨group, _, warned⟩ := exists_value (forall₂_of_mapM mapped) member
          rw [failed] at warned
          cases warned

end Cordboard.Topology
