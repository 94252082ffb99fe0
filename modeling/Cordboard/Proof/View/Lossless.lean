import Cordboard.Data.Group
import Cordboard.Proof.View.LiveWatch
import Cordboard.Proof.View.Placement

namespace Cordboard.Viewer
open Data Archive LiveReconciliation

/-- The record of a Step shows its span, and what is below the span stands below the record. -/
structure StepOf (spans : SpanMap) (record : StepRecord) (span : Span) : Prop where
  id : record.spanId = span.spanId
  node : span.attributes.get? "cord.node.name" = some record.node
  outcome : span.attributes.get? "cord.outcome" = some record.outcome
  start : record.startNs = span.startTimeUnixNano
  finish : record.endNs = span.endTimeUnixNano
  resumed : record.resumedFrom = (span.attributes.get? "cord.resumed_from").getD .null
  attempts : record.attempts.Perm ((under spans span.spanId (spansOf spans .attempt)).map attemptOf)
  children : (record.childSteps.map StepRecord.spanId).Perm
    ((under spans span.spanId (spansOf spans .step)).map Span.spanId)
  attemptOrder : record.attempts.Pairwise fun first second => first.startNs ≤ second.startNs
  childOrder : record.childSteps.Pairwise fun first second => first.startNs ≤ second.startNs

/-- The ends of a Run and of everything in it. -/
def endsIn (own : Nat) (steps : List StepRecord) : List Nat :=
  own :: ((flattenAll steps).map StepRecord.endNs ++
    (flattenAll steps).flatMap fun step => step.attempts.map AttemptRecord.endNs)

/-- The record of a Run shows its span, and ends with the latest span in it. -/
structure RunOf (spans : SpanMap) (record : RunRecord) (span : Span) : Prop where
  graph : span.attributes.get? "cord.graph.id" = some (.str record.graphId)
  run : span.attributes.get? "cord.run.id" = some (.str record.runId)
  type : span.attributes.get? "cord.subject.type" = some record.subjectType
  subject : span.attributes.get? "cord.subject.id" = some record.subjectId
  start : record.startNs = span.startTimeUnixNano
  steps : (record.steps.map StepRecord.spanId).Perm ((under spans span.spanId (spansOf spans .step)).map Span.spanId)
  order : record.steps.Pairwise fun first second => first.startNs ≤ second.startNs
  finish : record.endNs ∈ endsIn span.endTimeUnixNano record.steps
  latest : ∀ finish ∈ endsIn span.endTimeUnixNano record.steps, finish ≤ record.endNs

/-- The Steps that resume the same Step. -/
def resumers (steps : List StepRecord) (original : String) : List StepRecord :=
  steps.filter fun step => step.resumedFrom.pyEq (.str original)

/-- All but one of the Steps that resume the same Step are flagged, and that one starts first. -/
structure Flagged (group : List StepRecord) : Prop where
  others : group ≠ [] → (group.filter StepRecord.repeatedExecution).length + 1 = group.length
  first : ∀ step ∈ group, step.repeatedExecution = false → ∀ other ∈ group, step.startNs ≤ other.startNs

/-- The tree holds each span of the map once, below its parent. -/
structure Lossless (spans : SpanMap) (runs : List RunRecord) : Prop where
  shown : ∃ show_ : Span → RunRecord, runs.Perm ((spansOf spans .run).map show_) ∧
    ∀ span ∈ spansOf spans .run, RunOf spans (show_ span) span
  order : runs.Pairwise fun first second => first.startNs ≤ second.startNs
  steps : ∀ step ∈ allSteps runs, ∃ span ∈ spansOf spans .step, StepOf spans step span
  stepsOnce : ((allSteps runs).map StepRecord.spanId).Perm ((spansOf spans .step).map Span.spanId)
  attemptsOnce : ((allSteps runs).flatMap StepRecord.attempts).Perm ((spansOf spans .attempt).map attemptOf)
  fresh : ∀ step ∈ allSteps runs, isNone step.resumedFrom = true → step.repeatedExecution = false
  repeated : ∀ original, Flagged (resumers (allSteps runs) original)

section
variable {spans : SpanMap} {reference : Int} {drafts : Drafts} {key : String}

/-- The record of a Step in the tree shows the span of the Step. -/
theorem stepOf_assembled (filled : Filled spans drafts) {step : StepRecord} {draft : StepDraft}
    (assembled : Assembled drafts.steps step draft) : ∃ span ∈ spansOf spans .step, StepOf spans step span := by
  obtain ⟨span, held, kind, named, shows, attempts, children⟩ := filled.steps _ draft assembled.stored
  obtain ⟨fuel, shape⟩ := assembled.shape
  have tries : step.attempts = byStart AttemptRecord.startNs draft.attempts := congrArg StepRecord.attempts shape
  refine ⟨span, mem_spansOf.mpr ⟨held, kind⟩, ?_⟩
  constructor
  · exact named.symm
  · exact shows.node.trans (congrArg some (congrArg StepRecord.node shape).symm)
  · exact shows.outcome.trans (congrArg some (congrArg StepRecord.outcome shape).symm)
  · exact (congrArg StepRecord.startNs shape).trans shows.start
  · exact (congrArg StepRecord.endNs shape).trans shows.finish
  · exact (congrArg StepRecord.resumedFrom shape).trans shows.resumed
  · rw [tries, named, ← attempts]
    exact byStart_perm _ _
  · rw [named]
    exact assembled.children.trans children
  · rw [tries]
    exact byStart_sorted _ _
  · exact assembled.order

/-- The end of a Run is the latest of the ends in it. -/
theorem latest_end (own : Nat) (ends : List Nat) :
    ends.foldl max own ∈ own :: ends ∧ ∀ finish ∈ own :: ends, finish ≤ ends.foldl max own :=
  List.max?_eq_some_iff.mp List.max?_cons'

/-- The record of a Run shows the span of the Run. -/
theorem runOf_finished (accepted : Accepted spans reference) (filled : Filled spans drafts) {draft : RunDraft}
    (found : drafts.runs.get? key = some draft) {span : Span} (member : span ∈ spansOf spans .run)
    (named : span.spanId = key) : RunOf spans (finishRun drafts.steps draft) span := by
  obtain ⟨other, held, _, same, shows, steps⟩ := filled.runs key draft found
  obtain rfl := holds_inj held (mem_spansOf.mp member).1 (same.trans named.symm)
  have last := latest_end draft.endNs ((flattenAll (finishRun drafts.steps draft).steps).map StepRecord.endNs ++
    (flattenAll (finishRun drafts.steps draft).steps).flatMap fun step => step.attempts.map AttemptRecord.endNs)
  constructor
  · exact shows.graph
  · exact shows.run
  · exact shows.type
  · exact shows.subject
  · exact shows.start
  · rw [named]
    exact (assemble_ids (within_of_run accepted filled found)).trans steps
  · exact assemble_sorted
  · rw [endsIn, ← shows.finish]
    exact last.1
  · rw [endsIn, ← shows.finish]
    exact last.2

/-- The tables have no Run under an unknown key. -/
def blankRun : RunDraft := ⟨"", "", .null, .null, 0, 0, []⟩

theorem finished_eq (drafts : Drafts) : finished drafts = drafts.runs.keys.map fun key =>
    finishRun drafts.steps ((drafts.runs.get? key).getD blankRun) := by
  rw [finished, Dict.keys, List.map_map]
  apply List.map_congr_left
  intro item member
  show _ = finishRun drafts.steps ((drafts.runs.get? item.1).getD _)
  rw [(Dict.get?_eq_some_iff _ _ _).mpr member, Option.getD_some]

/-- Each Run of the map has one record. -/
theorem runs_once (accepted : Accepted spans reference) (filled : Filled spans drafts) :
    ∃ show_ : Span → RunRecord, (finished drafts).Perm ((spansOf spans .run).map show_) ∧
      ∀ span ∈ spansOf spans .run, RunOf spans (show_ span) span := by
  refine ⟨fun span => finishRun drafts.steps ((drafts.runs.get? span.spanId).getD blankRun), ?_, ?_⟩
  · rw [finished_eq]
    refine (filled.runKeys.map _).trans ?_
    rw [List.map_map]
    exact .refl _
  · intro span member
    have known := filled.runKeys.mem_iff.mpr (List.mem_map_of_mem member)
    obtain ⟨draft, found⟩ := Option.isSome_iff_exists.mp (mem_keys_iff.mp known)
    simp only [found, Option.getD_some]
    exact runOf_finished accepted filled found member rfl

/-- Each Attempt of the map stands once below its Step. -/
theorem attempts_once (accepted : Accepted spans reference) (filled : Filled spans drafts) :
    ((allSteps (finished drafts)).flatMap StepRecord.attempts).Perm ((spansOf spans .attempt).map attemptOf) := by
  have own : ((allSteps (finished drafts)).flatMap StepRecord.attempts).Perm
      ((allSteps (finished drafts)).flatMap fun step =>
        (under spans step.spanId (spansOf spans .attempt)).map attemptOf) := by
    apply List.Perm.flatMap_left
    intro step member
    obtain ⟨draft, assembled⟩ := allSteps_assembled accepted filled member
    obtain ⟨span, _, shows⟩ := stepOf_assembled filled assembled
    rw [shows.id]
    exact shows.attempts
  have keyed := (steps_once accepted filled).flatMap_right fun key =>
    (under spans key (spansOf spans .attempt)).map attemptOf
  rw [List.flatMap_map] at keyed
  refine own.trans (keyed.trans ?_)
  rw [← List.map_flatMap]
  apply List.Perm.map
  have distinct : (drafts.steps.keys.map some).Nodup :=
    drafts.steps.distinct.map (Option.some_injective _)
  have grouped := @Dict.perm_flatMap_filter (Option String) _ _ (fun span => parentKey spans span.spanId)
    (drafts.steps.keys.map some) (spansOf spans .attempt) distinct
  rw [List.flatMap_map] at grouped
  apply grouped
  intro span member
  obtain ⟨held, kind⟩ := mem_spansOf.mp member
  obtain ⟨value, checked⟩ := accepted.checked held
  obtain ⟨_, _, step, above⟩ := attempt_members checked kind
  obtain ⟨up, upper, _⟩ := parent_ok above
  rw [parentKey_of_holds held, up, Option.map_some]
  apply List.mem_map_of_mem
  exact filled.stepKeys.mem_iff.mpr (List.mem_map_of_mem (mem_spansOf.mpr ⟨holds_parent up, upper⟩))

/-- The Steps of the table that resume one Step, and the first of them, which is not flagged. -/
theorem exists_first (steps : Dict String StepDraft) {original : String} (some_ : resuming steps (.str original) ≠ []) :
    ∃ first ∈ resuming steps (.str original), ∀ item ∈ resuming steps (.str original),
      first.2.startNs ≤ item.2.startNs ∧ (repeated steps item.1 item.2 = false ↔ item.1 = first.1) := by
  have listed := byStart_perm (fun item : String × StepDraft => item.2.startNs) (resuming steps (.str original))
  have sorted := byStart_sorted (fun item : String × StepDraft => item.2.startNs) (resuming steps (.str original))
  have distinct : ((resuming steps (.str original)).map Prod.fst).Nodup :=
    steps.distinct.sublist (List.filter_sublist.map Prod.fst)
  cases split : byStart (fun item => item.2.startNs) (resuming steps (.str original)) with
  | nil =>
      rw [split] at listed
      exact absurd listed.nil_eq.symm some_
  | cons first rest =>
      rw [split] at listed sorted
      have fresh : first.1 ∉ rest.map Prod.fst := (List.nodup_cons.mp ((listed.map Prod.fst).nodup_iff.mpr distinct)).1
      refine ⟨first, listed.mem_iff.mp List.mem_cons_self, fun item member => ?_⟩
      have inside := List.mem_cons.mp (listed.mem_iff.mpr member)
      constructor
      · rcases inside with rfl | later
        · exact Nat.le_refl _
        · exact (List.pairwise_cons.mp sorted).1 item later
      · have origin : item.2.resumedFrom = .str original := by
          obtain ⟨_, same⟩ := List.mem_filter.mp member
          exact pyEq_text.mp (Bool.and_eq_true_iff.mp same).2
        have plain : isNone (.str original) = false := rfl
        rw [repeated, origin, plain, if_neg Bool.false_ne_true, split, List.drop_one, List.tail_cons, List.any_eq_false]
        constructor
        · intro absent
          rcases inside with rfl | later
          · rfl
          · exact absurd (decide_eq_true rfl) (absent item later)
        · intro same other later equal
          exact fresh (same ▸ of_decide_eq_true equal ▸ List.mem_map_of_mem later)

/-- A Step of the tree that resumes another one stands with its draft in the group of the table. -/
theorem resumer_draft (accepted : Accepted spans reference) (filled : Filled spans drafts) {original : String}
    {step : StepRecord} (member : step ∈ resumers (allSteps (finished drafts)) original) :
    ∃ draft, (step.spanId, draft) ∈ resuming drafts.steps (.str original) ∧ step.startNs = draft.startNs ∧
      step.repeatedExecution = repeated drafts.steps step.spanId draft := by
  obtain ⟨listed, origin⟩ := List.mem_filter.mp member
  obtain ⟨draft, assembled⟩ := allSteps_assembled accepted filled listed
  obtain ⟨fuel, shape⟩ := assembled.shape
  have resumed : step.resumedFrom = draft.resumedFrom := congrArg StepRecord.resumedFrom shape
  rw [resumed] at origin
  refine ⟨draft, List.mem_filter.mpr ⟨(Dict.get?_eq_some_iff _ _ _).mp assembled.stored, ?_⟩,
    congrArg StepRecord.startNs shape, congrArg StepRecord.repeatedExecution shape⟩
  show (!isNone draft.resumedFrom && draft.resumedFrom.pyEq (.str original)) = true
  rw [origin, pyEq_text.mp origin]
  rfl

/-- Each Step in the group of the table stands in the tree. -/
theorem resumer_of_draft (accepted : Accepted spans reference) (filled : Filled spans drafts) {original : String}
    {item : String × StepDraft} (member : item ∈ resuming drafts.steps (.str original)) :
    ∃ step ∈ resumers (allSteps (finished drafts)) original, step.spanId = item.1 := by
  obtain ⟨listed, origin⟩ := List.mem_filter.mp member
  have stored := (Dict.get?_eq_some_iff drafts.steps item.1 item.2).mpr listed
  have known := (steps_once accepted filled).mem_iff.mpr (Dict.mem_keys_of_get? stored)
  obtain ⟨step, inside, same⟩ := List.mem_map.mp known
  obtain ⟨draft, assembled⟩ := allSteps_assembled accepted filled inside
  obtain ⟨fuel, shape⟩ := assembled.shape
  have found := assembled.stored
  rw [same, stored] at found
  obtain rfl := Option.some.inj found
  refine ⟨step, List.mem_filter.mpr ⟨inside, ?_⟩, same⟩
  rw [congrArg StepRecord.resumedFrom shape]
  exact (Bool.and_eq_true_iff.mp origin).2

/-- In each group of resumptions all Steps but the first one are flagged. -/
theorem flagged_resumers (accepted : Accepted spans reference) (filled : Filled spans drafts) (original : String) :
    Flagged (resumers (allSteps (finished drafts)) original) := by
  by_cases empty : resuming drafts.steps (.str original) = []
  · have none_ : resumers (allSteps (finished drafts)) original = [] := by
      apply List.eq_nil_iff_forall_not_mem.mpr
      intro step member
      obtain ⟨draft, listed, _⟩ := resumer_draft accepted filled member
      rw [empty] at listed
      cases listed
    rw [none_]
    exact ⟨fun some_ => absurd rfl some_, fun step member => by cases member⟩
  obtain ⟨first, inside, each⟩ := exists_first drafts.steps empty
  have unflagged : ∀ step ∈ resumers (allSteps (finished drafts)) original,
      step.repeatedExecution = false ↔ step.spanId = first.1 := by
    intro step member
    obtain ⟨draft, listed, _, flag⟩ := resumer_draft accepted filled member
    rw [flag]
    exact (each _ listed).2
  constructor
  · intro _
    obtain ⟨step, member, same⟩ := resumer_of_draft accepted filled inside
    have distinct : ((resumers (allSteps (finished drafts)) original).map StepRecord.spanId).Nodup :=
      ((steps_once accepted filled).nodup_iff.mpr drafts.steps.distinct).sublist (List.filter_sublist.map _)
    have one : ((resumers (allSteps (finished drafts)) original).map StepRecord.spanId).count first.1 = 1 :=
      List.count_eq_one_of_mem distinct (same ▸ List.mem_map_of_mem member)
    have counted : (resumers (allSteps (finished drafts)) original).countP
        (fun step => !step.repeatedExecution) = 1 := by
      rw [← one, List.count, List.countP_map]
      apply List.countP_congr
      intro step member
      simpa using unflagged step member
    rw [List.countP_eq_length_filter] at counted
    have total := List.length_eq_length_filter_add (l := resumers (allSteps (finished drafts)) original)
      StepRecord.repeatedExecution
    omega
  · intro step member clear other listed
    obtain ⟨draft, group, start, _⟩ := resumer_draft accepted filled member
    obtain ⟨later, grouped, begins, _⟩ := resumer_draft accepted filled listed
    have same := (unflagged step member).mp clear
    have stored := (Dict.get?_eq_some_iff drafts.steps _ _).mpr (List.mem_filter.mp group).1
    have found := (Dict.get?_eq_some_iff drafts.steps _ _).mpr (List.mem_filter.mp inside).1
    rw [same, found] at stored
    obtain rfl := Option.some.inj stored
    rw [start, begins]
    exact (each _ grouped).1

/-- The order of a group does not matter for its flags. -/
theorem Flagged.perm {group others : List StepRecord} (flagged : Flagged group) (perm : group.Perm others) :
    Flagged others := by
  constructor
  · intro some_
    rw [← (perm.filter _).length_eq, ← perm.length_eq]
    exact flagged.others fun none_ => some_ (by rw [none_] at perm; exact perm.nil_eq.symm)
  · intro step member clear other listed
    exact flagged.first step (perm.mem_iff.mpr member) clear other (perm.mem_iff.mpr listed)

/-- The Runs of filled tables, sorted by their starts, are a lossless tree. -/
theorem lossless_finished (accepted : Accepted spans reference) (filled : Filled spans drafts) :
    Lossless spans (byStart RunRecord.startNs (finished drafts)) := by
  have runs := byStart_perm RunRecord.startNs (finished drafts)
  have steps : (allSteps (byStart RunRecord.startNs (finished drafts))).Perm (allSteps (finished drafts)) :=
    runs.flatMap_right _
  constructor
  · obtain ⟨show_, perm, shows⟩ := runs_once accepted filled
    exact ⟨show_, runs.trans perm, shows⟩
  · exact byStart_sorted _ _
  · intro step member
    obtain ⟨draft, assembled⟩ := allSteps_assembled accepted filled (steps.mem_iff.mp member)
    exact stepOf_assembled filled assembled
  · exact (steps.map _).trans ((steps_once accepted filled).trans filled.stepKeys)
  · exact (steps.flatMap_right _).trans (attempts_once accepted filled)
  · intro step member plain
    obtain ⟨draft, assembled⟩ := allSteps_assembled accepted filled (steps.mem_iff.mp member)
    obtain ⟨fuel, shape⟩ := assembled.shape
    have resumed : step.resumedFrom = draft.resumedFrom := congrArg StepRecord.resumedFrom shape
    rw [resumed] at plain
    exact (congrArg StepRecord.repeatedExecution shape).trans (if_pos plain)
  · intro original
    exact (flagged_resumers accepted filled original).perm (steps.symm.filter _)

/-- A tree that is built comes from filled tables, whose groups have keys. -/
theorem filled_of_built {runs : List RunRecord} (accepted : Accepted spans reference)
    (built : buildExecutionTree spans = .ok runs) : ∃ drafts, Filled spans drafts ∧
      checkResumed drafts.steps = .ok () ∧ runs = byStart RunRecord.startNs (finished drafts) := by
  have visits : (visitSpans spans spans.values Drafts.empty >>= fun drafts => checkResumed drafts.steps >>= fun _ =>
      (.ok (byStart RunRecord.startNs (finished drafts)) : Checked (List RunRecord))) = .ok runs := by
    unfold buildExecutionTree at built
    split at built
    · obtain ⟨_, _, later⟩ := bind_ok.mp built
      exact later
    · exact built
  obtain ⟨drafts, visited, later⟩ := bind_ok.mp visits
  obtain ⟨_, checked, same⟩ := bind_ok.mp later
  exact ⟨drafts, filled_of_visited accepted visited, checked, (Except.ok.inj same).symm⟩

/-- The tree is built only when each resumed Step can be a key. -/
theorem plain_of_built {runs : List RunRecord} (accepted : Accepted spans reference)
    (built : buildExecutionTree spans = .ok runs) : Plain spans := by
  obtain ⟨drafts, filled, checked, _⟩ := filled_of_built accepted built
  intro span held step
  have known := filled.stepKeys.mem_iff.mpr (List.mem_map_of_mem (mem_spansOf.mpr ⟨held, step⟩))
  obtain ⟨draft, found⟩ := Option.isSome_iff_exists.mp (mem_keys_iff.mp known)
  obtain ⟨other, also, _, same, shows, _⟩ := filled.steps _ draft found
  obtain rfl := holds_inj also held same
  rw [← shows.resumed]
  unfold checkResumed at checked
  split at checked
  · rename_i each
    exact List.all_eq_true.mp each _ ((Dict.get?_eq_some_iff _ _ _).mp found)
  · cases checked

end

end Cordboard.Viewer
