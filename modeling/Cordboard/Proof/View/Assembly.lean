import Mathlib.Data.Multiset.Basic
import Cordboard.Proof.View.Tables
import Cordboard.Proof.View.Timeline

namespace Cordboard.Viewer
open Data Archive

/-- Every Step of the Runs, at every depth. -/
def allSteps (runs : List RunRecord) : List StepRecord := runs.flatMap fun run => flattenAll run.steps

/-- The Step stands in the table, and the Steps below it end within the bound. -/
inductive Within (steps : Dict String StepDraft) : Nat → String → Prop
  | step {fuel : Nat} {key : String} {draft : StepDraft} (stored : steps.get? key = some draft)
      (below : ∀ child ∈ draft.childSteps, Within steps fuel child) : Within steps (fuel + 1) key

/-- The record of a Step below the Steps of an enclosing call. -/
def recordOf (steps : Dict String StepDraft) (fuel : Nat) (step : String) (draft : StepDraft) : StepRecord where
  spanId := step
  node := draft.node
  outcome := draft.outcome
  startNs := draft.startNs
  endNs := draft.endNs
  resumedFrom := draft.resumedFrom
  repeatedExecution := repeated steps step draft
  attempts := byStart AttemptRecord.startNs draft.attempts
  childSteps := assemble steps fuel draft.childSteps
  approvalWaitNs := approvalWait steps draft
  awaitingResume := awaitingResume steps step draft

/-- The record holds what the table holds of the Step. -/
structure Assembled (steps : Dict String StepDraft) (record : StepRecord) (draft : StepDraft) : Prop where
  stored : steps.get? record.spanId = some draft
  shape : ∃ fuel, record = recordOf steps fuel record.spanId draft
  children : (record.childSteps.map StepRecord.spanId).Perm draft.childSteps
  order : record.childSteps.Pairwise fun first second => first.startNs ≤ second.startNs

section
variable {steps : Dict String StepDraft} {fuel : Nat} {keys : List String}

theorem byStart_perm {A : Type} (start : A → Nat) (items : List A) : (byStart start items).Perm items :=
  List.mergeSort_perm _ _

theorem byStart_sorted {A : Type} (start : A → Nat) (items : List A) :
    (byStart start items).Pairwise fun first second => start first ≤ start second := by
  have sorted := @List.pairwise_mergeSort A (fun first second => decide (start first ≤ start second))
    (fun first second third below above => by simp at below above ⊢; omega)
    (fun first second => by simp; omega) items
  exact sorted.imp of_decide_eq_true

theorem assemble_succ : assemble steps (fuel + 1) keys = byStart StepRecord.startNs
    (keys.filterMap fun step => (steps.get? step).map (recordOf steps fuel step)) := rfl

theorem assemble_sorted : (assemble steps fuel keys).Pairwise fun first second => first.startNs ≤ second.startNs := by
  cases fuel with
  | zero => exact List.Pairwise.nil
  | succ fuel => exact byStart_sorted _ _

/-- The table loses no Step when the bound is large enough. -/
theorem assemble_ids (within : ∀ key ∈ keys, Within steps fuel key) :
    ((assemble steps fuel keys).map StepRecord.spanId).Perm keys := by
  cases fuel with
  | zero =>
      cases keys with
      | nil => exact .refl _
      | cons key rest => cases within key List.mem_cons_self
  | succ fuel =>
      rw [assemble_succ]
      refine ((byStart_perm _ _).map _).trans ?_
      rw [List.map_filterMap]
      have same : ∀ key ∈ keys, ((steps.get? key).map (recordOf steps fuel key)).map StepRecord.spanId = some key := by
        intro key member
        cases within key member with
        | step stored below =>
            rw [stored]
            rfl
      rw [List.filterMap_congr same, List.filterMap_some]

theorem assembled_of_mem (within : ∀ key ∈ keys, Within steps fuel key) {record : StepRecord}
    (member : record ∈ flattenAll (assemble steps fuel keys)) : ∃ draft, Assembled steps record draft := by
  induction fuel generalizing keys with
  | zero => cases member
  | succ fuel ih =>
      obtain ⟨top, listed, inside⟩ := mem_flattenAll.mp member
      obtain ⟨key, known, found⟩ := List.mem_filterMap.mp (mem_byStart.mp listed)
      obtain ⟨draft, stored, rfl⟩ := Option.map_eq_some_iff.mp found
      have below : ∀ child ∈ draft.childSteps, Within steps fuel child := by
        cases within key known with
        | step other below =>
            obtain rfl := Option.some.inj (stored.symm.trans other)
            exact below
      rcases mem_flatten.mp inside with rfl | deeper
      · exact ⟨draft, stored, ⟨fuel, rfl⟩, assemble_ids below, assemble_sorted⟩
      · exact ih below deeper

mutual

theorem flatten_ids : ∀ step : StepRecord, (step.flatten.map StepRecord.spanId).Perm
    (step.spanId :: step.flatten.flatMap fun record => record.childSteps.map StepRecord.spanId)
  | step@⟨_, _, _, _, _, _, _, _, childSteps, _, _⟩ => by
      rw [StepRecord.flatten, List.map_cons, List.flatMap_cons]
      exact .cons _ (flattenAll_ids childSteps)

/-- The Steps of a forest are its top Steps and the children of its Steps. -/
theorem flattenAll_ids : ∀ records : List StepRecord, ((flattenAll records).map StepRecord.spanId).Perm
    (records.map StepRecord.spanId ++ (flattenAll records).flatMap fun record => record.childSteps.map StepRecord.spanId)
  | [] => .refl _
  | step :: rest => by
      rw [flattenAll, List.map_append, List.flatMap_append, List.map_cons, List.cons_append]
      refine ((flatten_ids step).append (flattenAll_ids rest)).trans ?_
      rw [List.cons_append]
      refine .cons _ ?_
      rw [← List.append_assoc, ← List.append_assoc]
      exact List.perm_append_comm.append_right _

end

theorem flattenAll_append (first second : List StepRecord) :
    flattenAll (first ++ second) = flattenAll first ++ flattenAll second := by
  induction first with
  | nil => rfl
  | cons step rest ih => rw [List.cons_append, flattenAll, flattenAll, ih, List.append_assoc]

theorem allSteps_eq (runs : List RunRecord) : allSteps runs = flattenAll (runs.flatMap RunRecord.steps) := by
  induction runs with
  | nil => rfl
  | cons run rest ih => rw [allSteps, List.flatMap_cons, List.flatMap_cons, flattenAll_append, ← ih, allSteps]

end

end Cordboard.Viewer
