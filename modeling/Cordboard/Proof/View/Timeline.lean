import Cordboard.Data.Periods
import Cordboard.Proof.Archive.Acceptance
import Cordboard.Proof.View.Building

namespace Cordboard.Viewer
open Data Archive

/-- The wait before a Step begins at the end of the Step that it resumes. -/
def waitOf (steps : List StepRecord) (step : StepRecord) : Option Period :=
  match step.resumedFrom with
  | .str original =>
      (steps.find? fun paused => paused.spanId = original).map fun paused => ⟨paused.endNs, step.startNs⟩
  | _ => none

/-- The waits between the Steps of a Run, at every depth. -/
def waits (run : RunRecord) : List Period :=
  (flattenAll run.steps).filterMap (waitOf (flattenAll run.steps))

/-- Each resumed Step starts after a Step of the same Run ended, and the Steps stand inside the Run. -/
structure Ordered (run : RunRecord) : Prop where
  linked : ∀ step ∈ flattenAll run.steps, isNone step.resumedFrom = false →
    ∃ paused ∈ flattenAll run.steps, step.resumedFrom = .str paused.spanId ∧ paused.endNs ≤ step.startNs
  starts : ∀ step ∈ flattenAll run.steps, run.startNs ≤ step.startNs ∧ step.startNs ≤ run.endNs
  ends : ∀ step ∈ flattenAll run.steps, run.startNs ≤ step.endNs ∧ step.endNs ≤ run.endNs

/-- The waits are summed. The sum is the length of their union when no two of them overlap. -/
structure Timeline (run : RunRecord) : Prop where
  wait : run.approvalWaitNs = Period.total (waits run)
  execution : run.executionNs = run.endNs - run.startNs - run.approvalWaitNs
  union : (Period.covered (waits run)).card ≤ run.approvalWaitNs
  exact : (run.approvalWaitNs = (Period.covered (waits run)).card ∧
      run.startNs + run.executionNs + run.approvalWaitNs = run.endNs) ↔
    (waits run).Pairwise Period.Apart ∧ run.startNs ≤ run.endNs

/-- The record of a Step shows its draft. -/
structure Shows (steps : Dict String StepDraft) (step : StepRecord) (draft : StepDraft) : Prop where
  stored : steps.get? step.spanId = some draft
  start : step.startNs = draft.startNs
  finish : step.endNs = draft.endNs
  resumed : step.resumedFrom = draft.resumedFrom
  wait : step.approvalWaitNs = approvalWait steps draft

section
variable {steps : Dict String StepDraft} {draft : RunDraft} {run : RunRecord} {step : StepRecord}

theorem mem_flattenAll {records : List StepRecord} : step ∈ flattenAll records ↔ ∃ top ∈ records, step ∈ top.flatten := by
  induction records with
  | nil => simp [flattenAll]
  | cons first rest ih => simp [flattenAll, ih]

theorem mem_flatten {top : StepRecord} : step ∈ top.flatten ↔ step = top ∨ step ∈ flattenAll top.childSteps := by
  cases top
  rw [StepRecord.flatten, List.mem_cons]

theorem mem_byStart {A : Type} {start : A → Nat} {items : List A} {item : A} :
    item ∈ byStart start items ↔ item ∈ items := List.mem_mergeSort

/-- Each record of the tree shows a draft of the table. -/
theorem shows_of_mem {fuel : Nat} {keys : List String} (member : step ∈ flattenAll (assemble steps fuel keys)) :
    ∃ draft, Shows steps step draft := by
  induction fuel generalizing keys with
  | zero => cases member
  | succ fuel ih =>
      obtain ⟨top, listed, inside⟩ := mem_flattenAll.mp member
      obtain ⟨key, _, found⟩ := List.mem_filterMap.mp (mem_byStart.mp listed)
      obtain ⟨draft, stored, rfl⟩ := Option.map_eq_some_iff.mp found
      rcases mem_flatten.mp inside with rfl | below
      · exact ⟨draft, stored, rfl, rfl, rfl, rfl⟩
      · exact ih below

/-- A linked Step waits from the end of its original. -/
theorem wait_of_linked {records : List StepRecord}
    (shown : ∀ step ∈ records, ∃ draft, Shows steps step draft) (member : step ∈ records)
    (linked : isNone step.resumedFrom = false →
      ∃ paused ∈ records, step.resumedFrom = .str paused.spanId ∧ paused.endNs ≤ step.startNs) :
    step.approvalWaitNs = (waitOf records step).map Period.length := by
  obtain ⟨own, shows⟩ := shown step member
  rw [shows.wait, approvalWait, ← shows.resumed, waitOf]
  cases resumed : step.resumedFrom with
  | str original =>
      obtain ⟨paused, listed, same, _⟩ := linked (by rw [resumed]; rfl)
      obtain rfl : original = paused.spanId := Json.str.inj (resumed.symm.trans same)
      obtain ⟨other, earlier⟩ := shown paused listed
      cases found : records.find? fun record => record.spanId = paused.spanId with
      | none =>
          have different := List.find?_eq_none.mp found paused listed
          simp at different
      | some first =>
          have named : first.spanId = paused.spanId := by simpa using List.find?_some found
          obtain ⟨again, shown⟩ := shown first (List.mem_of_find?_eq_some found)
          obtain rfl : other = again := by
            have stored := shown.stored
            rw [named, earlier.stored] at stored
            exact Option.some.inj stored
          dsimp only
          rw [earlier.stored, found, Option.map_some, Option.map_some, Option.map_some, ← shows.start, ← shown.finish]
          rfl
  | _ => rfl

theorem flattened_waits (ordered : Ordered (finishRun steps draft)) :
    (flattenAll (finishRun steps draft).steps).filterMap StepRecord.approvalWaitNs =
      (waits (finishRun steps draft)).map Period.length := by
  rw [waits, List.map_filterMap]
  apply List.filterMap_congr
  intro step member
  exact wait_of_linked (fun _ inside => shows_of_mem inside) member (ordered.linked step member)

theorem waits_inside (ordered : Ordered run) : ∀ wait ∈ waits run, run.startNs ≤ wait.start ∧ wait.stop ≤ run.endNs := by
  intro wait member
  obtain ⟨step, listed, found⟩ := List.mem_filterMap.mp member
  unfold waitOf at found
  split at found
  · obtain ⟨paused, known, rfl⟩ := Option.map_eq_some_iff.mp found
    exact ⟨(ordered.ends paused (List.mem_of_find?_eq_some known)).1, (ordered.starts step listed).2⟩
  · cases found

/-- The Run of a draft sums the waits. -/
theorem finishRun_timeline (ordered : Ordered (finishRun steps draft)) : Timeline (finishRun steps draft) := by
  have summed : (finishRun steps draft).approvalWaitNs = Period.total (waits (finishRun steps draft)) :=
    congrArg List.sum (flattened_waits ordered)
  have execution : (finishRun steps draft).executionNs =
      (finishRun steps draft).endNs - (finishRun steps draft).startNs - (finishRun steps draft).approvalWaitNs := rfl
  have longer := @Period.card_covered_le (waits (finishRun steps draft))
  have within := Period.card_covered_within (waits_inside ordered)
  have apart := @Period.total_eq_card_iff (waits (finishRun steps draft))
  refine ⟨summed, execution, summed ▸ longer, ?_⟩
  rw [← apart, ← summed]
  omega

end

/-- The records of a tree are finished from the drafts of one table. -/
theorem finished_of_built {spans : SpanMap} {runs : List RunRecord} (built : buildExecutionTree spans = .ok runs)
    {run : RunRecord} (member : run ∈ runs) : ∃ steps draft, run = finishRun steps draft := by
  have later : ∃ drafts : Drafts, (checkResumed drafts.steps >>= fun _ =>
      .ok (byStart RunRecord.startNs (drafts.runs.items.map fun item => finishRun drafts.steps item.2))) =
        (.ok runs : Checked (List RunRecord)) := by
    unfold buildExecutionTree at built
    split at built
    · obtain ⟨_, _, rest⟩ := bind_ok.mp built
      obtain ⟨drafts, _, checked⟩ := bind_ok.mp rest
      exact ⟨drafts, checked⟩
    · obtain ⟨drafts, _, checked⟩ := bind_ok.mp built
      exact ⟨drafts, checked⟩
  obtain ⟨drafts, checked⟩ := later
  obtain ⟨_, _, ended⟩ := bind_ok.mp checked
  obtain rfl := Except.ok.inj ended
  obtain ⟨item, _, same⟩ := List.mem_map.mp (mem_byStart.mp member)
  exact ⟨drafts.steps, item.2, same.symm⟩

/-- Each Run of the tree sums its waits, and the sum is exact when no two waits overlap. -/
theorem timeline_sums_waits (spans : SpanMap) (reference top : Int) (rows : List Row)
    (done : querySpans spans reference top = .ok rows) :
    (Plain spans → ∃ runs, buildExecutionTree spans = .ok runs) ∧
    ∀ runs, buildExecutionTree spans = .ok runs → ∀ run ∈ runs, Ordered run → Timeline run := by
  have accepted := (querySpans_ok.mp ⟨rows, done⟩).2
  refine ⟨tree_returns accepted, ?_⟩
  intro runs built run member ordered
  obtain ⟨steps, draft, rfl⟩ := finished_of_built built member
  exact finishRun_timeline ordered

section Example

/-- The Steps of a Run are ordered when each one passes these checks. -/
def orderedSteps (start finish : Nat) (steps : List StepRecord) : Bool :=
  steps.all fun step =>
    decide ((start ≤ step.startNs ∧ step.startNs ≤ finish) ∧ start ≤ step.endNs ∧ step.endNs ≤ finish) &&
      match step.resumedFrom with
      | .null => true
      | .str original => steps.any fun paused => paused.spanId = original ∧ paused.endNs ≤ step.startNs
      | _ => false

theorem ordered_of_steps {run : RunRecord} (checked : orderedSteps run.startNs run.endNs (flattenAll run.steps) = true) :
    Ordered run := by
  have each := fun step member => Bool.and_eq_true_iff.mp (List.all_eq_true.mp checked step member)
  have within := fun step member => of_decide_eq_true (each step member).1
  refine ⟨?_, fun step member => (within step member).1, fun step member => (within step member).2⟩
  intro step member resumed
  have linked := (each step member).2
  cases origin : step.resumedFrom with
  | str original =>
      rw [origin] at linked
      obtain ⟨paused, listed, same⟩ := List.any_eq_true.mp linked
      obtain ⟨rfl, ended⟩ := of_decide_eq_true same
      exact ⟨paused, listed, rfl, ended⟩
  | null =>
      rw [origin] at resumed
      cases resumed
  | _ =>
      rw [origin] at linked
      cases linked

theorem byStart_of_sorted {A : Type} {start : A → Nat} {items : List A}
    (sorted : items.Pairwise fun first second => start first ≤ start second) : byStart start items = items :=
  List.mergeSort_of_pairwise (sorted.imp fun below => decide_eq_true below)

def pausedStep (id node outcome : String) (resumed : List (String × Json)) (start finish : Nat) : Span :=
  ⟨id, "t", some (.str "01"), some (.str ("step:" ++ node)),
    identified ([("cord.node.name", .str node), ("cord.outcome", .str outcome)] ++ resumed), start, finish, []⟩

/-- Two branches of one Run pause, and the waits for their approvals overlap. -/
def parallelArchive : SpanMap :=
  [{ runSpan with endTimeUnixNano := 12 }, pausedStep "02" "a" "awaiting_approval" [] 2 10,
    pausedStep "03" "b" "awaiting_approval" [] 3 12,
    pausedStep "04" "a" "passed" [("cord.resumed_from", .str "02")] 20 25,
    pausedStep "05" "b" "passed" [("cord.resumed_from", .str "03")] 22 30].foldl insertSpan SpanMap.empty

def parallelDrafts : Drafts := ((visitSpans parallelArchive parallelArchive.values Drafts.empty).toOption).getD .empty

def parallelRun : RunRecord :=
  finishRun parallelDrafts.steps ((parallelDrafts.runs.get? "01").getD ⟨"", "", .null, .null, 0, 0, []⟩)

theorem parallel_built : buildExecutionTree parallelArchive = .ok [parallelRun] := by
  have validated : querySpans parallelArchive 0 1 = .ok [] := by decide +kernel
  have visited : visitSpans parallelArchive parallelArchive.values Drafts.empty = .ok parallelDrafts := by
    have returned : (visitSpans parallelArchive parallelArchive.values Drafts.empty).toOption.isSome = true := by
      decide +kernel
    unfold parallelDrafts
    cases outcome : visitSpans parallelArchive parallelArchive.values Drafts.empty with
    | error failure =>
        rw [outcome] at returned
        cases returned
    | ok drafts => rfl
  have checked : checkResumed parallelDrafts.steps = .ok () := by decide +kernel
  have single : parallelDrafts.runs.items.map (fun item => finishRun parallelDrafts.steps item.2) = [parallelRun] := by
    rfl
  unfold buildExecutionTree
  rw [if_pos (by decide +kernel), validated, visited]
  simp only [bind, Except.bind, checked, single]
  exact congrArg Except.ok (List.mergeSort_singleton _)

/-- The Steps of the Run already stand in the order of their starts. -/
theorem parallel_steps : parallelRun.steps = ["02", "03", "04", "05"].filterMap fun step =>
    (parallelDrafts.steps.get? step).map fun draft =>
      { spanId := step, node := draft.node, outcome := draft.outcome, startNs := draft.startNs,
        endNs := draft.endNs, resumedFrom := draft.resumedFrom,
        repeatedExecution := repeated parallelDrafts.steps step draft,
        attempts := byStart AttemptRecord.startNs draft.attempts,
        childSteps := assemble parallelDrafts.steps 4 draft.childSteps,
        approvalWaitNs := approvalWait parallelDrafts.steps draft,
        awaitingResume := awaitingResume parallelDrafts.steps step draft } :=
  byStart_of_sorted (by decide +kernel)

theorem parallel_ends : parallelRun.endNs = 30 := by
  have ends : parallelRun.endNs = ((flattenAll parallelRun.steps).map StepRecord.endNs ++
      (flattenAll parallelRun.steps).flatMap fun step => step.attempts.map AttemptRecord.endNs).foldl max 12 := rfl
  rw [ends, parallel_steps]
  decide +kernel

theorem parallel_ordered : Ordered parallelRun := by
  apply ordered_of_steps
  rw [parallel_ends, parallel_steps]
  decide +kernel

theorem parallel_waits : waits parallelRun = [⟨10, 20⟩, ⟨12, 22⟩] := by
  rw [waits, parallel_steps]
  decide +kernel

/-- The sum of the overlapping waits is longer than the time that the Run waited. -/
theorem parallel_waits_overlap :
    querySpans parallelArchive 0 1 = .ok [] ∧ buildExecutionTree parallelArchive = .ok [parallelRun] ∧
    Ordered parallelRun ∧ parallelRun.approvalWaitNs = 20 ∧ (Period.covered (waits parallelRun)).card = 12 := by
  refine ⟨by decide +kernel, parallel_built, parallel_ordered, ?_, ?_⟩
  · have summed : parallelRun.approvalWaitNs = ((flattenAll parallelRun.steps).filterMap StepRecord.approvalWaitNs).sum :=
      rfl
    rw [summed, parallel_steps]
    decide +kernel
  · rw [parallel_waits]
    decide +kernel

theorem timeline_sums_waits_parallel : Timeline parallelRun ∧ ¬ (waits parallelRun).Pairwise Period.Apart := by
  have timeline := (timeline_sums_waits parallelArchive 0 1 [] (by decide +kernel)).2 [parallelRun] parallel_built
    parallelRun List.mem_cons_self parallel_ordered
  rw [parallel_waits]
  exact ⟨timeline, by decide +kernel⟩

end Example

end Cordboard.Viewer
