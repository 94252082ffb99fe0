import Cordboard.Effects.Budget
import Cordboard.Proof.Cascade.CascadeSweep
import Cordboard.Proof.Script

namespace Cordboard.Router
open Data Effects DeploymentLifecycle

/-- This operation executes a Run. -/
def isExecute : Effect → Bool
  | .call (.execute ..) => true
  | _ => false

/-- An execution stays within the maximum depth. -/
def Shallow : Effect → Prop
  | .call (.execute _ _ _ _ _ _ cascadeDepth) => cascadeDepth ≤ maxCascadeDepth
  | _ => True

/-- A program executes at most so many Runs, each within the maximum depth. -/
abbrev Executes {A : Type} (budget : Nat) (program : Py A) : Prop :=
  Fallible.Affords Shallow (fun op : Effect => isExecute op) budget program

/-- An operation outside the executions is free. -/
theorem shallow_of_area {op : Effect} (outside : op.area ≠ .execution) : Shallow op ∧ isExecute op = false := by
  cases op with
  | call target =>
      cases target with
      | execute => exact absurd rfl outside
      | _ => exact ⟨trivial, rfl⟩
  | _ => exact ⟨trivial, rfl⟩

/-- A program outside the executions executes nothing. -/
theorem executes_within {A : Type} {areas : List Area} {program : Py A} (within : Within areas program)
    (outside : Area.execution ∉ areas) : Executes 0 program := by
  apply Program.affords_of_uses
  apply Fallible.Uses.mono within
  intro op inside
  apply shallow_of_area
  rintro same
  rw [same] at inside
  exact outside inside

/-- A first program that executes nothing leaves the budget to the second one. -/
theorem Executes.rest {A B : Type} {program : Py A} {rest : A → Py B} {budget : Nat} (first : Executes 0 program)
    (second : ∀ value, Executes budget (rest value)) : Executes budget (program >>= rest) := by
  have both := Fallible.Affords.bind first second
  rwa [Nat.zero_add] at both

/-- A last program that executes nothing adds nothing to the budget. -/
theorem Executes.last {A B : Type} {program : Py A} {rest : A → Py B} {budget : Nat} (first : Executes budget program)
    (second : ∀ value, Executes 0 (rest value)) : Executes budget (program >>= rest) :=
  Fallible.Affords.bind first second

section
variable {signal : Signal} {rule : Rule} {timeout now : Time}

/-- A submission executes at most one Run. -/
theorem submitStarted_executes (shallow : signal.childCascadeDepth ≤ maxCascadeDepth) (connection : Connection)
    (graphInput : List (String × Json)) (subject : String) :
    Executes 1 (submitStarted signal rule connection graphInput subject timeout now) := by
  have executing : Executes 0 (note (.executing signal.id now)) := ⟨trivial, 0, le_rfl, fun _ => trivial⟩
  have execute : Executes 1 (call (.execute connection.endpoint rule.assistant subject graphInput timeout
      signal.causedByRunId signal.childCascadeDepth)) := ⟨shallow, 0, le_rfl, fun _ => trivial⟩
  unfold submitStarted
  apply Executes.rest (executes_within (SignalDedupe.claim_inside _ _ _) (by decide))
  intro granted
  split
  · exact Fallible.affords_pure _ _
  apply executing.rest
  intro _
  apply execute.last
  intro answer
  cases answer with
  | error exc =>
      dsimp only
      split
      · exact Fallible.affords_pure _ 0
      · exact Fallible.affords_raise _ 0
  | ok result => exact executes_within (recordAccepted_within _ _ _ _ _) (by decide)

theorem submitRun_executes (shallow : signal.childCascadeDepth ≤ maxCascadeDepth) (connection : Connection)
    (graphInput : List (String × Json)) (subject : String) :
    Executes 1 (submitRun signal rule connection graphInput subject timeout now) := by
  unfold submitRun
  apply Executes.rest (executes_within (ensureStarted_inside _ _ _ _ _) (by decide))
  intro started
  cases started with
  | startFailed error => exact Fallible.affords_pure _ _
  | external => exact submitStarted_executes shallow connection graphInput subject
  | running record => exact submitStarted_executes shallow connection graphInput subject

theorem settleRun_executes (shallow : signal.childCascadeDepth ≤ maxCascadeDepth) (connection : Connection)
    (graphInput : List (String × Json)) (subject : String) :
    Executes 1 (settleRun signal rule connection graphInput subject timeout now) := by
  have released (deployment concurrency : Bool) :
      Executes 0 (releaseUnlessRetained signal rule connection subject now deployment concurrency) :=
    executes_within (releaseUnlessRetained_within _ _ _ _ _ _ _) (by decide)
  unfold settleRun
  apply Executes.last (submitRun_executes shallow connection graphInput subject).attempt
  intro settled
  cases settled with
  | error exc => exact (released _ _).rest fun _ => Fallible.affords_raise _ 0
  | ok submitted => exact (released _ _).rest fun _ => Fallible.affords_ofExcept _ 0

/-- This many levels are left for the executions of a Signal. -/
def levels (signal : Signal) : Nat := maxCascadeDepth + 1 - signal.childCascadeDepth

variable {cascade : Signal → Py Response}

theorem chain_executes (children : ∀ child, Executes (levels child) (cascade child)) (subject : String)
    (response : Response) :
    Executes (maxCascadeDepth - signal.childCascadeDepth) (chain cascade signal rule subject response) := by
  unfold chain
  split
  · split
    · unfold runFinishedSignal
      dsimp only
      split
      · exact Fallible.affords_raise _ _
      · rename_i result _ _ _
        have child := children (.finished
          ⟨result.runId, subject, rule.connection, rule.assistant, "success", signal.childCascadeDepth⟩)
        rw [levels, Signal.childCascadeDepth, Nat.add_sub_add_right] at child
        exact child.last fun _ => Fallible.affords_pure _ 0
    · exact Fallible.affords_pure _ _
  · exact Fallible.affords_pure _ _

theorem routeMapped_executes (children : ∀ child, Executes (levels child) (cascade child))
    (shallow : signal.childCascadeDepth ≤ maxCascadeDepth) (connection : Connection)
    (graphInput : List (String × Json)) (subject : String) :
    Executes (levels signal) (routeMapped cascade signal rule connection graphInput subject timeout now) := by
  unfold routeMapped
  apply Executes.rest (executes_within (Concurrency.tryClaim_inside _ _ _ _ _) (by decide))
  intro taken
  split
  · exact Fallible.affords_pure _ _
  · have budget : levels signal = 1 + (maxCascadeDepth - signal.childCascadeDepth) := by
      unfold levels
      omega
    rw [budget]
    apply Fallible.Affords.bind (settleRun_executes shallow connection graphInput subject)
    exact fun response => chain_executes children subject response

theorem routeByRule_executes (children : ∀ child, Executes (levels child) (cascade child))
    (shallow : signal.childCascadeDepth ≤ maxCascadeDepth) :
    Executes (levels signal) (routeByRule cascade timeout now signal) := by
  have unmatched (reason : String) : Executes 0 (recordUnmatched signal reason) :=
    executes_within (recordUnmatched_inside _ _) (by decide)
  unfold routeByRule
  apply Executes.rest (executes_within (load_inside .rules) (by decide))
  intro rules
  split
  · exact (unmatched _).rest fun _ => Fallible.affords_pure _ _
  · apply Executes.rest (executes_within (mapRule_within _ _).attempt (by decide))
    intro mapped
    cases mapped with
    | error exc =>
        dsimp only
        split
        · exact (unmatched _).rest fun _ => Fallible.affords_pure _ _
        · exact Fallible.affords_raise _ _
    | ok target => exact routeMapped_executes children shallow target.2 target.1.1 target.1.2

/-- The recursion executes one Run on each level that is left. -/
theorem routeWithin_executes (fuel : Nat) (signal : Signal) :
    Executes (levels signal) (routeWithin timeout now fuel signal) := by
  induction fuel generalizing signal with
  | zero => exact Fallible.affords_raise _ _
  | succ fuel ih =>
      cases signal with
      | external source id payload => exact routeByRule_executes ih (Nat.zero_le _)
      | finished run =>
          have routing : Executes 0 (note (.routing run)) := ⟨trivial, 0, le_rfl, fun _ => trivial⟩
          unfold routeWithin routeHop
          apply routing.rest
          intro _
          split
          · apply Executes.rest (executes_within (recordUnmatched_inside _ _) (by decide))
            exact fun _ => Fallible.affords_pure _ _
          · rename_i within
            apply routeByRule_executes ih
            simp only [Signal.childCascadeDepth]
            omega

/-- One level depends on the recursive calls for its own children only. -/
theorem routeHop_congr {first second : Signal → Py Response} (same : signal.childCascadeDepth ≤ maxCascadeDepth →
      ∀ run : FinishedRun, run.cascadeDepth = signal.childCascadeDepth → first (.finished run) = second (.finished run)) :
    routeHop first timeout now signal = routeHop second timeout now signal := by
  have byRule (shallow : signal.childCascadeDepth ≤ maxCascadeDepth) :
      routeByRule first timeout now signal = routeByRule second timeout now signal := by
    have chained : chain first signal = chain second signal := by
      funext rule subject response
      unfold chain runFinishedSignal
      split
      · split
        · dsimp only
          split
          · rfl
          · rename_i result _ _ _
            have child := same shallow
              ⟨result.runId, subject, rule.connection, rule.assistant, "success", signal.childCascadeDepth⟩ rfl
            change (first _ >>= _) = (second _ >>= _)
            rw [child]
        · rfl
      · rfl
    have mapped : routeMapped first signal = routeMapped second signal := by
      funext rule connection graphInput subject timeout now
      unfold routeMapped
      rw [chained]
    unfold routeByRule
    rw [mapped]
  cases signal with
  | external source id payload => exact byRule (Nat.zero_le _)
  | finished run =>
      unfold routeHop
      dsimp only
      by_cases deep : maxCascadeDepth ≤ run.cascadeDepth
      · simp only [if_pos deep]
      · have shallow : (Signal.finished run).childCascadeDepth ≤ maxCascadeDepth := by
          simp only [Signal.childCascadeDepth]
          omega
        simp only [if_neg deep, byRule shallow]

/-- More fuel changes nothing. -/
theorem routeWithin_stable {one two : Nat} (first : remainingDepth signal ≤ one) (second : remainingDepth signal ≤ two) :
    routeWithin timeout now one signal = routeWithin timeout now two signal := by
  induction one generalizing signal two with
  | zero => cases signal <;> simp [remainingDepth] at first
  | succ one ih =>
      cases two with
      | zero => cases signal <;> simp [remainingDepth] at second
      | succ two =>
          apply routeHop_congr
          intro shallow run child
          have enough : remainingDepth (.finished run) + 1 ≤ remainingDepth signal := by
            cases signal <;> simp only [remainingDepth, Signal.childCascadeDepth] at child shallow ⊢ <;> omega
          exact ih (by omega) (by omega)

/-- `route_signal` calls itself for its children, and its bound cuts no call short. -/
theorem routeSignal_recursive (signal : Signal) (timeout now : Time) :
    routeSignal signal timeout now = routeHop (fun child => routeSignal child timeout now) timeout now signal := by
  have positive : remainingDepth signal = remainingDepth signal - 1 + 1 := by
    cases signal <;> simp [remainingDepth]
  have step : routeSignal signal timeout now =
      routeHop (routeWithin timeout now (remainingDepth signal - 1)) timeout now signal := by
    unfold routeSignal
    rw [positive]
    rfl
  rw [step]
  apply routeHop_congr
  intro shallow run child
  apply routeWithin_stable
  · cases signal <;> simp only [remainingDepth, Signal.childCascadeDepth] at child shallow ⊢ <;> omega
  · exact le_rfl

end

/-- A composed program performs shallow operations when each part does. -/
theorem shallow_sequential : Sequential fun _ program => Fallible.Uses Shallow program where
  returns := Fallible.uses_pure
  raises := Fallible.uses_raise
  bind := Fallible.Uses.bind
  attempt := Fallible.Uses.attempt

/-- A program outside the executions is shallow. -/
theorem shallow_within {A : Type} {areas : List Area} {program : Py A} (within : Within areas program)
    (outside : Area.execution ∉ areas) : Fallible.Uses Shallow program :=
  Program.Affords.uses (executes_within within outside)

theorem discard_shallow {A : Type} {program : Py A} (shallow : Fallible.Uses Shallow program) :
    (discard program).Uses Shallow := Program.Uses.bind shallow fun _ => trivial

/-- Each operation executes within the maximum depth. -/
theorem perform_shallow (op : Operation) : op.perform.Uses Shallow := by
  have routed (signal : Signal) (timeout now : Time) : Fallible.Uses Shallow (routeSignal signal timeout now) :=
    Program.Affords.uses (routeWithin_executes _ signal)
  cases op with
  | route source id payload timeout now => exact discard_shallow (routed _ _ _)
  | sweep timeout now =>
      apply discard_shallow
      apply sweepPending_composed shallow_sequential.toComposed (fun within => shallow_within within (by decide))
      · exact shallow_within (load_inside .pending) (by decide)
      · exact fun _ _ _ _ => shallow_within (Concurrency.renew_inside _ _ _ _) (by decide)
      · exact fun _ _ _ => shallow_within (releaseActive_within _ _ _ _) (by simp [Holder.area])
      · exact fun _ _ _ _ => shallow_within (Concurrency.release_within _ _ _) (by simp [Holder.area])
      · exact fun _ _ => shallow_within (PendingCompletions.updatePending_inside _ _ _ _ _ _) (by decide)
      · exact fun _ _ => shallow_within (PendingCompletions.resolvePending_inside _ _) (by decide)
      · exact fun signal => routed signal timeout now
  | submit submission boundary =>
      apply discard_shallow
      apply ApprovalInbox.submitResponse_sequential shallow_sequential
        (fun within => shallow_within within (by decide))
      apply ApprovalInbox.afterResume_sequential shallow_sequential
      · exact fun _ _ _ _ _ => shallow_within (PendingCompletions.recordPending_inside _ _ _ _ _ _ _ _ _) (by decide)
      · exact shallow_within (PendingCompletions.resolvePending_inside _ _) (by decide)
      · exact fun signal => routed signal _ _

end Cordboard.Router

namespace Cordboard.Provenance
open Data Effects
open Router

/-- The phase before the first operation. -/
def start : Phase := ⟨.unknown, none, none, fun _ => none, [], []⟩

/-- A board without entries starts the invariant. -/
theorem traced_start {strict : Prop} {board : Board} (empty : ∀ pair, (board .pending).find? pair = none) :
    Traced strict [] (board, start) := by
  refine ⟨by simp [start], ?_, by simp, by simp [start], by simp [start]⟩
  intro pair entry present
  rw [show ((board, start).1 .pending).find? pair = none from empty pair] at present
  cases present

/-- An operation that is no answer of an operator keeps the invariant. -/
theorem perform_traced {strict : Prop} {limit : Limit} {op : Operation} (automatic : op.isSubmit = false)
    {board : Board} {phase : Phase} (traced : Traced strict [] (board, phase)) :
    op.perform.wp (tracing limit) (fun _ _ after => Traced strict [] after) (board, prepare op phase) := by
  have prepared : Traced strict [] (board, prepare op phase) := by
    cases op <;> exact ⟨traced.placed, traced.entries, traced.items, traced.executions, traced.routed⟩
  cases op with
  | route source id payload timeout now =>
      exact (Program.wp_bind _ _ _ _).mpr (routeSignal_traced prepared rfl)
  | sweep timeout now => exact (Program.wp_bind _ _ _ _).mpr (sweepPending_traced prepared)
  | submit submission boundary => cases automatic

/-- Each execution of routes and sweeps is given the hops and the Run of its cause. No operation executes beyond the
maximum depth, one Signal starts at most one execution for each depth, and its recursion is the one of the source. -/
theorem cascade_exact {ops : List Operation} (automatic : ∀ op ∈ ops, op.isSubmit = false) {board : Board}
    (empty : ∀ pair, (board .pending).find? pair = none) {final : Board × Phase}
    (session : (operations unlimited).Session ops (board, start) final) :
    (∀ execution ∈ final.2.executions, execution.Exact) ∧
    (∀ (op : Operation) (before : Board) (trace : List signature.Event) (after : Board),
      Runs boardMachine op.perform before trace () after → ∀ event ∈ trace, Shallow event.1) ∧
    (∀ (signal : Signal) (timeout now : Time) (before : Board) (trace : List signature.Event)
      (outcome : Except Exc Response) (after : Board),
      Runs boardMachine (routeSignal signal timeout now).toProgram before trace outcome after →
        trace.countP (fun event => isExecute event.1) ≤ maxCascadeDepth + 1) ∧
    ∀ (signal : Signal) (timeout now : Time),
      routeSignal signal timeout now = routeHop (fun child => routeSignal child timeout now) timeout now signal := by
  refine ⟨?_, ?_, ?_, routeSignal_recursive⟩
  · have traced : Traced True [] final := by
      apply session.keeps _ (traced_start empty)
      intro op member state traced
      exact perform_traced (automatic op member) traced
    exact traced.executions trivial
  · exact fun op before trace after run => (perform_shallow op).events run
  · intro signal timeout now before trace outcome after run
    have executes : Executes (levels signal) (routeSignal signal timeout now) := routeWithin_executes _ signal
    exact (executes.count_le run).trans (Nat.sub_le _ _)

instance (board : Board) (phase : Phase) (pair : PendingCompletions.Pair) : Decidable (unlimited board phase pair) :=
  .isTrue trivial

/-- The condition of a step is decidable when the condition of a resume is. -/
instance meetsDecidable (limit : Limit) [∀ board phase pair, Decidable (limit board phase pair)] (board : Board)
    (phase : Phase) : (op : Effect) → (answer : op.Answer) → Decidable (meets limit board phase op answer)
  | .call (.execute ..), .ok result => inferInstanceAs (Decidable (result.threadId ≠ ""))
  | .note (.learned deployment threadId _ _), _ => inferInstanceAs (Decidable
      (phase.accepted.isSome = true → RunContinuity.recordOf (board .continuity) (deployment, threadId) = none))
  | .note (.resuming deployment threadId _), _ => inferInstanceAs (Decidable (limit board phase (deployment, threadId)))
  | .call (.execute ..), .error _ | .note (.activityReleased ..), _ | .note (.activityTaken ..), _
  | .note (.concurrencyTaken ..), _ | .note (.concurrencyReleased ..), _ | .note (.concurrencyRenewed ..), _
  | .note (.signalClaimed ..), _ | .note (.executing ..), _ | .note (.responseClaimed ..), _
  | .note (.pendingChanged ..), _ | .note (.pendingReturned ..), _ | .note (.observed ..), _ | .note (.cascaded ..), _
  | .note (.routing _), _ | .call (.isAlive ..), _ | .call (.launch ..), _ | .call (.healthCheck ..), _
  | .call (.stop ..), _ | .call (.describeRun ..), _ | .call (.lastPoll ..), _ | .call (.threadState ..), _
  | .call (.submitResume ..), _ | .call (.authorize ..), _ | .call (.postAuthorize ..), _ | .call (.halt ..), _
  | .read _, _ | .write .., _ | .lock _, _ | .unlock _, _ => .isTrue trivial

/-- A manual Signal starts a graph, and the completion of the graph starts a review. -/
def reviewed : Board
  | .connections => .content (Dict.empty.set "local" ⟨"http://localhost", [], none⟩)
  | .rules => .content [⟨"start", .manual, [], [], "local", "graph", "subject", []⟩,
      ⟨"review", .runFinished, [("assistant", .str "graph")], [], "local", "review", "subject", []⟩]
  | _ => .missing

/-- A source starts the graph, and a sweep observes its completion. -/
def startAndSweep : List Operation := [.route .manual "signal-1" [("subject", .str "42")] 10 0, .sweep 10 5]

/-- The graph pauses at first, and the sweep finds that it has succeeded. -/
def observedLater : Operation → Script
  | .sweep .. => fun past target =>
      match target with
      | .describeRun .. => .ok ⟨some "graph", "success", some "42"⟩
      | .execute .. => .ok ⟨"run-2", "thread-2", .success⟩
      | other => calm past other
  | _ => calm

/-- The review is executed one hop below the graph. -/
theorem cascade_exact_reviewed :
    ∃ final, (operations unlimited).Session startAndSweep (reviewed, start) final ∧
      final.2.executions.map Execution.cascadeDepth = [1, 0] ∧
      final.2.executions.map Execution.causedByRunId = [some "run-1", none] ∧
      ∀ execution ∈ final.2.executions, execution.Exact := by
  let play := (operations unlimited).exec (fun op => (observedLater op).resolver) startAndSweep (reviewed, start)
  obtain ⟨final, ended⟩ := Option.isSome_iff_exists.mp (show play.isSome = true by decide +kernel)
  have logs : play.map (fun final => (final.2.executions.map Execution.cascadeDepth,
      final.2.executions.map Execution.causedByRunId)) = some ([1, 0], [some "run-1", none]) := by decide +kernel
  rw [ended] at logs
  obtain ⟨depths, runs⟩ := Prod.mk.inj (Option.some.inj logs)
  have session := (operations unlimited).exec_session ended
  exact ⟨final, session, depths, runs,
    (cascade_exact (by decide) (fun _ => rfl) session).1⟩

end Cordboard.Provenance
