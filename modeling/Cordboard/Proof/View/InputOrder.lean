import Cordboard.Proof.View.Lossless
import Mathlib.Data.Multiset.Bind

namespace Cordboard.Viewer
open Data Archive LiveReconciliation

/-- A Step without its flag, and without the order of its Attempts and of the Steps below it. -/
def StepRecord.unordered (step : StepRecord) : StepRecord × Multiset AttemptRecord × Multiset String :=
  ({ step with repeatedExecution := false, attempts := [], childSteps := [] }, ↑step.attempts,
    ↑(step.childSteps.map StepRecord.spanId))

/-- A Run without the order of its Steps. -/
def RunRecord.unordered (run : RunRecord) : RunRecord × Multiset String :=
  ({ run with steps := [] }, ↑(run.steps.map StepRecord.spanId))

/-- The Step is one of several earliest Steps of its group. -/
def Tied (group : List StepRecord) (step : StepRecord) : Prop :=
  (∀ rival ∈ group, step.startNs ≤ rival.startNs) ∧
    ∃ rival ∈ group, rival.spanId ≠ step.spanId ∧ rival.startNs = step.startNs

/-- Two trees differ at most in the order of records and in the flags of tied Steps. -/
structure SameTree (runs others : List RunRecord) : Prop where
  roots : (runs.map RunRecord.unordered).Perm (others.map RunRecord.unordered)
  steps : ((allSteps runs).map StepRecord.unordered).Perm ((allSteps others).map StepRecord.unordered)
  flags : ∀ step ∈ allSteps runs, ∀ other ∈ allSteps others, step.spanId = other.spanId →
    step.repeatedExecution ≠ other.repeatedExecution →
    ∃ original, step ∈ resumers (allSteps runs) original ∧ Tied (resumers (allSteps runs) original) step

/-- Two drafts of a Step differ at most in the order of what is below it. -/
structure SameDraft (first second : StepDraft) : Prop where
  node : first.node = second.node
  outcome : first.outcome = second.outcome
  start : first.startNs = second.startNs
  finish : first.endNs = second.endNs
  resumed : first.resumedFrom = second.resumedFrom
  attempts : first.attempts.Perm second.attempts
  children : first.childSteps.Perm second.childSteps

/-- Two drafts of a Run differ at most in the order of its Steps. -/
structure SameRun (first second : RunDraft) : Prop where
  graph : first.graphId = second.graphId
  run : first.runId = second.runId
  type : first.subjectType = second.subjectType
  subject : first.subjectId = second.subjectId
  start : first.startNs = second.startNs
  finish : first.endNs = second.endNs
  steps : first.steps.Perm second.steps

/-- The same identifiers name the same spans. -/
def SameMap (spans others : SpanMap) : Prop := ∀ key, spans.entries.get? key = others.entries.get? key

section
variable {spans others : SpanMap} {reference : Int} {span : Span}

theorem sameMap_of_perm (perm : spans.entries.items.Perm others.entries.items) : SameMap spans others := by
  intro key
  apply Option.ext
  intro entry
  show spans.entries.get? key = some entry ↔ others.entries.get? key = some entry
  rw [Dict.get?_eq_some_iff, Dict.get?_eq_some_iff]
  exact perm.mem_iff

theorem SameMap.symm (same : SameMap spans others) : SameMap others spans := fun key => (same key).symm

theorem SameMap.get (same : SameMap spans others) : spans.get = others.get := by
  funext value
  cases value with
  | str key => exact congrArg Except.ok (same key)
  | _ => rfl

theorem SameMap.values (same : SameMap spans others) : spans.values.Perm others.values :=
  (Dict.items_perm same).map Prod.snd

theorem SameMap.holds (same : SameMap spans others) : spans.holds span ↔ others.holds span := by
  unfold SpanMap.holds
  simp only [same.values.mem_iff]

theorem SameMap.parent (same : SameMap spans others) (expected : Role) :
    parent spans span expected = parent others span expected := by
  unfold Archive.parent
  rw [same.get]

theorem SameMap.runRootWithin (same : SameMap spans others) (fuel : Nat) (seen : List String) :
    runRootWithin spans fuel seen span = runRootWithin others fuel seen span := by
  induction fuel generalizing seen span with
  | zero => rfl
  | succ fuel ih =>
      unfold Archive.runRootWithin
      rw [same.get]
      simp only [ih]

theorem SameMap.runRoot (same : SameMap spans others) : runRoot spans span = runRoot others span := by
  unfold Archive.runRoot
  have keys : spans.entries.keys.length = others.entries.keys.length :=
    ((Dict.items_perm same).map Prod.fst).length_eq
  rw [keys, same.runRootWithin]

/-- The check of a span reads the map only by identifiers. -/
theorem SameMap.querySpan (same : SameMap spans others) :
    querySpan spans reference span = querySpan others reference span := by
  unfold Archive.querySpan queryStep queryAttempt
  simp only [same.get, same.parent, same.runRoot]

theorem SameMap.accepted (same : SameMap spans others) (accepted : Accepted spans reference) :
    Accepted others reference := by
  intro entry member
  obtain ⟨value, checked⟩ := accepted entry (same.values.mem_iff.mpr member)
  exact ⟨value, same.querySpan ▸ checked⟩

theorem SameMap.parentKey (same : SameMap spans others) (key : String) :
    parentKey spans key = parentKey others key := by
  unfold Viewer.parentKey parentOf
  rw [same key, same.get]

theorem SameMap.spansOf (same : SameMap spans others) (kind : Role) :
    (spansOf spans kind).Perm (spansOf others kind) := (same.values.map Entry.span).filter _

theorem SameMap.under (same : SameMap spans others) (above : String) (kind : Role) :
    (under spans above (Viewer.spansOf spans kind)).Perm (under others above (Viewer.spansOf others kind)) := by
  unfold Viewer.under
  simp only [same.parentKey]
  exact (same.spansOf kind).filter _

end

/-- Two tables hold the same Steps. -/
def SameSteps (steps others : Dict String StepDraft) : Prop :=
  ∀ key, Option.Rel SameDraft (steps.get? key) (others.get? key)

section
variable {steps others : Dict String StepDraft} {fuel : Nat} {keys names : List String} {key : String}
  {first second : StepDraft}

theorem SameSteps.found (same : SameSteps steps others) (found : steps.get? key = some first) :
    ∃ second, others.get? key = some second ∧ SameDraft first second := by
  have related := same key
  rw [found] at related
  generalize others.get? key = other at related ⊢
  cases related with
  | some shared => exact ⟨_, rfl, shared⟩

theorem SameDraft.symm (same : SameDraft first second) : SameDraft second first :=
  ⟨same.node.symm, same.outcome.symm, same.start.symm, same.finish.symm, same.resumed.symm, same.attempts.symm,
    same.children.symm⟩

theorem SameSteps.symm (same : SameSteps steps others) : SameSteps others steps := by
  intro key
  have related := same key
  generalize steps.get? key = one at related ⊢
  generalize others.get? key = two at related ⊢
  cases related with
  | none => exact .none
  | some shared => exact .some shared.symm

theorem SameSteps.isSome (same : SameSteps steps others) (key : String) :
    (steps.get? key).isSome = (others.get? key).isSome := by
  have related := same key
  generalize steps.get? key = one at related ⊢
  generalize others.get? key = two at related ⊢
  cases related <;> rfl

theorem SameSteps.approvalWait (same : SameSteps steps others) (shared : SameDraft first second) :
    approvalWait steps first = approvalWait others second := by
  unfold Viewer.approvalWait
  rw [shared.resumed, shared.start]
  cases second.resumedFrom with
  | str original =>
      have related := same original
      dsimp only
      generalize steps.get? original = one at related ⊢
      generalize others.get? original = two at related ⊢
      cases related with
      | none => rfl
      | some paused => rw [Option.map_some, Option.map_some, paused.finish]
  | _ => rfl

theorem SameSteps.resuming_nil (same : SameSteps steps others) (original : Json)
    (none_ : resuming steps original = []) : resuming others original = [] := by
  apply List.eq_nil_iff_forall_not_mem.mpr
  intro item member
  obtain ⟨listed, origin⟩ := List.mem_filter.mp member
  obtain ⟨draft, found, shared⟩ := same.symm.found ((Dict.get?_eq_some_iff _ _ _).mpr listed)
  have inside : (item.1, draft) ∈ resuming steps original := by
    apply List.mem_filter.mpr
    rw [shared.resumed] at origin
    exact ⟨(Dict.get?_eq_some_iff _ _ _).mp found, origin⟩
  rw [none_] at inside
  cases inside

theorem SameSteps.awaitingResume (same : SameSteps steps others) (shared : SameDraft first second) :
    awaitingResume steps key first = awaitingResume others key second := by
  unfold Viewer.awaitingResume
  rw [shared.outcome]
  congr 1
  rw [Bool.eq_iff_iff, List.isEmpty_iff, List.isEmpty_iff]
  exact ⟨same.resuming_nil _, same.symm.resuming_nil _⟩

/-- The same Steps stand below an enclosing call. -/
theorem SameSteps.assemble_ids (same : SameSteps steps others) (fuel : Nat) (perm : keys.Perm names) :
    ((assemble steps fuel keys).map StepRecord.spanId).Perm ((assemble others fuel names).map StepRecord.spanId) := by
  have listed : ∀ (table : Dict String StepDraft) (keys : List String),
      ((assemble table fuel keys).map StepRecord.spanId).Perm
        (if fuel = 0 then [] else keys.filter fun key => (table.get? key).isSome) := by
    intro table keys
    cases fuel with
    | zero => exact .nil
    | succ fuel =>
        rw [assemble_succ, if_neg (Nat.succ_ne_zero fuel)]
        refine ((byStart_perm _ _).map _).trans ?_
        rw [List.map_filterMap, ← List.filterMap_eq_filter]
        apply List.Perm.of_eq
        apply List.filterMap_congr
        intro key _
        cases found : table.get? key with
        | none => simp [found, Option.guard]
        | some draft => simp [found, recordOf, Option.guard]
  refine (listed steps keys).trans (.trans ?_ (listed others names).symm)
  split
  · exact .refl _
  · simp only [same.isSome]
    exact perm.filter _

theorem SameSteps.recordOf (same : SameSteps steps others) (shared : SameDraft first second) :
    (recordOf steps fuel key first).unordered = (recordOf others fuel key second).unordered := by
  have tries : (byStart AttemptRecord.startNs first.attempts).Perm (byStart AttemptRecord.startNs second.attempts) :=
    (byStart_perm _ _).trans (shared.attempts.trans (byStart_perm _ _).symm)
  unfold StepRecord.unordered Viewer.recordOf
  rw [Multiset.coe_eq_coe.mpr tries, Multiset.coe_eq_coe.mpr (same.assemble_ids fuel shared.children), shared.node,
    shared.outcome, shared.start, shared.finish, shared.resumed, same.approvalWait shared, same.awaitingResume shared]

theorem flattenAll_eq (records : List StepRecord) : flattenAll records = records.flatMap StepRecord.flatten := by
  induction records with
  | nil => rfl
  | cons record rest ih => rw [flattenAll, List.flatMap_cons, ih]

theorem flatten_recordOf : (recordOf steps fuel key first).flatten =
    recordOf steps fuel key first :: flattenAll (assemble steps fuel first.childSteps) := rfl

/-- The same Steps stand anywhere below an enclosing call. -/
theorem SameSteps.assemble (same : SameSteps steps others) (fuel : Nat) (perm : keys.Perm names) :
    ((flattenAll (assemble steps fuel keys)).map StepRecord.unordered).Perm
      ((flattenAll (assemble others fuel names)).map StepRecord.unordered) := by
  induction fuel generalizing keys names with
  | zero => exact .nil
  | succ fuel ih =>
      have listed : ∀ (table : Dict String StepDraft) (keys : List String),
          ((flattenAll (Viewer.assemble table (fuel + 1) keys)).map StepRecord.unordered).Perm
            (keys.flatMap fun key => (((table.get? key).map (Viewer.recordOf table fuel key)).toList.flatMap
              StepRecord.flatten).map StepRecord.unordered) := by
        intro table keys
        rw [assemble_succ, flattenAll_eq, ← List.map_flatMap, ← List.flatMap_assoc]
        apply List.Perm.map
        refine ((byStart_perm _ _).flatMap_right _).trans ?_
        rw [List.filterMap_eq_flatMap_toList]
      refine (listed steps keys).trans (.trans ?_ (listed others names).symm)
      apply perm.flatMap
      intro key _
      have related := same key
      generalize steps.get? key = one at related ⊢
      generalize others.get? key = two at related ⊢
      cases related with
      | none => exact .refl _
      | some shared =>
          rw [Option.map_some, Option.map_some, Option.toList_some, Option.toList_some, List.flatMap_singleton,
            List.flatMap_singleton, flatten_recordOf, flatten_recordOf, List.map_cons, List.map_cons,
            same.recordOf shared]
          exact (ih shared.children).cons _

end

section
variable {spans others : SpanMap} {reference : Int} {drafts tables : Drafts} {steps table : Dict String StepDraft}
  {records further : List StepRecord} {first second : RunDraft} {key : String}

theorem keys_same (same : SameMap spans others) (filled : Filled spans drafts) (full : Filled others tables) :
    drafts.steps.keys.Perm tables.steps.keys ∧ drafts.runs.keys.Perm tables.runs.keys :=
  ⟨filled.stepKeys.trans (((same.spansOf .step).map _).trans full.stepKeys.symm),
    filled.runKeys.trans (((same.spansOf .run).map _).trans full.runKeys.symm)⟩

/-- The tables of two orders of one map hold the same Steps. -/
theorem steps_same (same : SameMap spans others) (filled : Filled spans drafts) (full : Filled others tables) :
    SameSteps drafts.steps tables.steps := by
  intro key
  have keys := (keys_same same filled full).1.mem_iff (a := key)
  rw [mem_keys_iff, mem_keys_iff] at keys
  cases found : drafts.steps.get? key with
  | none =>
      rw [found] at keys
      have none_ : tables.steps.get? key = none := by simpa using keys
      rw [none_]
      exact .none
  | some draft =>
      rw [found] at keys
      obtain ⟨other, stored⟩ := Option.isSome_iff_exists.mp (keys.mp rfl)
      obtain ⟨span, held, _, named, shows, attempts, children⟩ := filled.steps key draft found
      obtain ⟨twin, also, _, called, shown, tries, below⟩ := full.steps key other stored
      obtain rfl := holds_inj held (same.holds.mpr also) (named.trans called.symm)
      rw [stored]
      apply Option.Rel.some
      constructor
      · exact Option.some.inj (shows.node.symm.trans shown.node)
      · exact Option.some.inj (shows.outcome.symm.trans shown.outcome)
      · exact shows.start.trans shown.start.symm
      · exact shows.finish.trans shown.finish.symm
      · exact shows.resumed.trans shown.resumed.symm
      · rw [attempts, tries]
        exact (same.under key .attempt).map _
      · exact children.trans (((same.under key .step).map _).trans below.symm)

theorem runs_same (same : SameMap spans others) (filled : Filled spans drafts) (full : Filled others tables)
    (found : drafts.runs.get? key = some first) :
    ∃ second, tables.runs.get? key = some second ∧ SameRun first second := by
  have known := (keys_same same filled full).2.mem_iff.mp (Dict.mem_keys_of_get? found)
  obtain ⟨second, stored⟩ := Option.isSome_iff_exists.mp (mem_keys_iff.mp known)
  obtain ⟨span, held, _, named, shows, steps⟩ := filled.runs key first found
  obtain ⟨twin, also, _, called, shown, below⟩ := full.runs key second stored
  obtain rfl := holds_inj held (same.holds.mpr also) (named.trans called.symm)
  refine ⟨second, stored, ?_⟩
  constructor
  · exact Json.str.inj (Option.some.inj (shows.graph.symm.trans shown.graph))
  · exact Json.str.inj (Option.some.inj (shows.run.symm.trans shown.run))
  · exact Option.some.inj (shows.type.symm.trans shown.type)
  · exact Option.some.inj (shows.subject.symm.trans shown.subject)
  · exact shows.start.trans shown.start.symm
  · exact shows.finish.trans shown.finish.symm
  · exact steps.trans (((same.under key .step).map _).trans below.symm)

/-- The ends of the Attempts do not depend on any order. -/
theorem attempt_ends (records : List StepRecord) :
    Multiset.ofList (records.flatMap fun step => step.attempts.map AttemptRecord.endNs) =
      (Multiset.ofList (records.map StepRecord.unordered)).bind fun step => step.2.1.map AttemptRecord.endNs := by
  induction records with
  | nil => rfl
  | cons step rest ih =>
      rw [List.flatMap_cons, List.map_cons, ← Multiset.cons_coe, Multiset.cons_bind, ← ih, ← Multiset.coe_add]
      rfl

theorem ends_same (perm : (records.map StepRecord.unordered).Perm (further.map StepRecord.unordered)) :
    (records.map StepRecord.endNs ++ records.flatMap fun step => step.attempts.map AttemptRecord.endNs).Perm
      (further.map StepRecord.endNs ++ further.flatMap fun step => step.attempts.map AttemptRecord.endNs) := by
  apply List.Perm.append
  · have ends := perm.map fun step => step.1.endNs
    rw [List.map_map, List.map_map] at ends
    exact ends
  · apply Multiset.coe_eq_coe.mp
    rw [attempt_ends, attempt_ends, Multiset.coe_eq_coe.mpr perm]

theorem waits_same (perm : (records.map StepRecord.unordered).Perm (further.map StepRecord.unordered)) :
    (records.filterMap StepRecord.approvalWaitNs).sum = (further.filterMap StepRecord.approvalWaitNs).sum := by
  have waits := (perm.filterMap fun step => step.1.approvalWaitNs).sum_nat
  rw [List.filterMap_map, List.filterMap_map] at waits
  exact waits

theorem incomplete_same (perm : (records.map StepRecord.unordered).Perm (further.map StepRecord.unordered)) :
    records.any StepRecord.incomplete = further.any StepRecord.incomplete := by
  have gaps := (perm.map fun step => step.1.incomplete).any_eq (f := id)
  rw [List.map_map, List.map_map, List.any_map, List.any_map] at gaps
  exact gaps

theorem latest_same (own : Nat) {ends finishes : List Nat} (perm : ends.Perm finishes) :
    ends.foldl max own = finishes.foldl max own := by
  have inside := perm.cons own
  apply Nat.le_antisymm
  · exact (latest_end own finishes).2 _ (inside.mem_iff.mp (latest_end own ends).1)
  · exact (latest_end own ends).2 _ (inside.mem_iff.mpr (latest_end own finishes).1)

/-- The record of a Run without its Steps. -/
def sealed (draft : RunDraft) (endNs waited : Nat) (incomplete : Bool) : RunRecord :=
  ⟨draft.graphId, draft.runId, draft.subjectType, draft.subjectId, draft.startNs, endNs, [], waited,
    endNs - draft.startNs - waited, incomplete⟩

theorem finishRun_unordered (steps : Dict String StepDraft) (draft : RunDraft) : (finishRun steps draft).unordered =
    (sealed draft (((flattenAll (assemble steps (steps.keys.length + 1) draft.steps)).map StepRecord.endNs ++
          (flattenAll (assemble steps (steps.keys.length + 1) draft.steps)).flatMap fun step =>
            step.attempts.map AttemptRecord.endNs).foldl max draft.endNs)
        ((flattenAll (assemble steps (steps.keys.length + 1) draft.steps)).filterMap StepRecord.approvalWaitNs).sum
        ((flattenAll (assemble steps (steps.keys.length + 1) draft.steps)).any StepRecord.incomplete),
      Multiset.ofList ((assemble steps (steps.keys.length + 1) draft.steps).map StepRecord.spanId)) := rfl

/-- A Run is finished in the same way from both tables. -/
theorem finishRun_same (same : SameSteps steps table) (keys : steps.keys.length = table.keys.length)
    (shared : SameRun first second) : (finishRun steps first).unordered = (finishRun table second).unordered := by
  have nested := same.assemble (table.keys.length + 1) shared.steps
  have top := Multiset.coe_eq_coe.mpr (same.assemble_ids (table.keys.length + 1) shared.steps)
  rw [finishRun_unordered, finishRun_unordered, keys, top, shared.finish, latest_same _ (ends_same nested),
    waits_same nested, incomplete_same nested]
  unfold sealed
  rw [shared.graph, shared.run, shared.type, shared.subject, shared.start]

end

end Cordboard.Viewer
