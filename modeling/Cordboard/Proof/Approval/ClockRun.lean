import Cordboard.Proof.Approval.Clock

namespace Cordboard
open Data Effects

namespace ApprovalExpiry
open PendingCompletions (Pair)

/-- A halt comes before each write, on a clock without a disposition. A halt that raises leaves the board as it was. -/
def HaltLaw {A : Type} (pair : Pair) (board : Board) (trace : List signature.Event) (outcome : Except Exc A)
    (after : Board) : Prop :=
  ∀ earlier later deployment threadId (answer : Except Exc Unit),
    trace = earlier ++ (⟨Effect.call (.halt deployment threadId), answer⟩ : signature.Event) :: later →
      (deployment, threadId) = pair ∧
      (∃ record, clockOf (board .expiry) pair = some record ∧ record.disposition = none) ∧
      (∀ event ∈ earlier, event.1.writes .expiry = false) ∧
      ∀ exc, answer = .error exc → outcome = .error exc ∧ after = board

section
variable {A : Type} {board after : Board} {pair : Pair} {trace : List signature.Event} {outcome : Except Exc A}

/-- Each event of a run satisfies what the program uses. -/
theorem wp_used {allowed : Effect → Prop} {program : Py A} (uses : Fallible.Uses allowed program) (board : Board) :
    Fallible.wp boardMachine program (fun trace _ _ => ∀ event ∈ trace, allowed event.1) board := by
  apply Program.wp_of_runs
  · exact fun _ _ => trivial
  · exact fun trace value final run => Program.Uses.events uses run

/-- A trace without a halt has nothing to satisfy. -/
theorem haltLaw_of_calm (calm : ∀ event ∈ trace, event.1.halts = false) : HaltLaw pair board trace outcome after := by
  rintro earlier later deployment threadId answer rfl
  have absent := calm _ (List.mem_append_right earlier List.mem_cons_self)
  cases absent

/-- The only halt of a trace stands at its own place. -/
theorem split_at_halt {first last earlier later : List signature.Event} {own other : signature.Event}
    (before : ∀ event ∈ first, event.1.halts = false) (behind : ∀ event ∈ last, event.1.halts = false)
    (same : first ++ own :: last = earlier ++ other :: later) (halts : other.1.halts = true) :
    earlier = first ∧ other = own := by
  rcases List.append_eq_append_iff.mp same with ⟨middle, rfl, rest⟩ | ⟨middle, rfl, rest⟩
  · cases middle with
    | nil => exact ⟨List.append_nil first, (List.cons.inj rest).1.symm⟩
    | cons event middle =>
        obtain ⟨rfl, rfl⟩ := List.cons.inj rest
        have absent := behind other (List.mem_append_right middle List.mem_cons_self)
        rw [halts] at absent
        cases absent
  · cases middle with
    | nil => exact ⟨(List.append_nil earlier).symm, (List.cons.inj rest).1⟩
    | cons event middle =>
        obtain ⟨rfl, _⟩ := List.cons.inj rest
        have absent := before other (List.mem_append_right earlier List.mem_cons_self)
        rw [halts] at absent
        cases absent

theorem resolveTimedOut_moves (pair : Pair) (now : Time) : Fallible.wp boardMachine (resolveTimedOut pair.1 pair.2 now)
    (fun trace outcome after => (Moves (.resolveTimedOut pair now) board outcome after ∧
      ∀ record, outcome = .ok record → clockOf (after .expiry) pair = some record) ∧
      HaltLaw pair board trace outcome after) board := by
  have read : ∀ event ∈ [(⟨Effect.read .expiry, board .expiry⟩ : signature.Event)], event.1.halts = false := by simp [Effect.halts]
  rw [resolveTimedOut, Fallible.wp_bind, wp_require]
  cases reads : found (board .expiry) pair.1 pair.2 with
  | error exc =>
      refine ⟨⟨moves_none _ board _, ?_⟩, haltLaw_of_calm read⟩
      intro record same
      cases same
  | ok item =>
      obtain ⟨data, record⟩ := item
      obtain ⟨_, own⟩ := found_ok reads
      rw [Fallible.after_ok]
      dsimp only
      split
      · refine ⟨⟨moves_none _ board _, ?_⟩, haltLaw_of_calm read⟩
        intro other same
        obtain rfl := Except.ok.inj same
        exact own
      · rename_i undecided
        have open_ : record.disposition = none := by simpa using undecided
        rw [Fallible.wp_bind, wp_call]
        refine ⟨trivial, ?_⟩
        intro answer middle moved
        have unmoved : middle = board := moved
        subst middle
        rw [Fallible.after_ok, Fallible.wp_bind, Fallible.wp_ofExcept]
        have placed : ∀ {B : Type} (tail : List signature.Event) (outcome : Except Exc B) (after : Board),
            (∀ event ∈ tail, event.1.halts = false) → (∀ exc, answer = .error exc → outcome = .error exc ∧ after = board) →
            HaltLaw pair board ([⟨Effect.read .expiry, board .expiry⟩] ++
              ([(⟨Effect.call (.halt pair.1 pair.2), answer⟩ : signature.Event)] ++ ([] ++ tail))) outcome after := by
          intro B tail outcome after calm raised earlier later deployment threadId other same
          obtain ⟨rfl, event⟩ := split_at_halt read calm same rfl
          obtain ⟨same, answers⟩ := Sigma.mk.inj event
          obtain ⟨rfl, rfl⟩ := Call.halt.inj (Effect.call.inj same)
          obtain rfl := eq_of_heq answers
          refine ⟨rfl, ⟨record, own, open_⟩, ?_, raised⟩
          simp [Effect.writes]
        cases answer with
        | error exc =>
            refine ⟨⟨moves_none _ board _, ?_⟩, ?_⟩
            · intro other same
              cases same
            · apply placed [] _ board
              · simp
              · intro other same
                exact ⟨congrArg Except.error (Except.error.inj same), rfl⟩
        | ok _ =>
            rw [Fallible.after_ok]
            have moves := @dispose_moves board (.resolveTimedOut pair now) .halted now (fun record => .halted pair now record)
            have calm := wp_used (@dispose_uses pair.1 pair.2 Effect.Quiet rfl (fun _ => rfl) .halted now) board
            apply Program.wp_mono (Program.wp_and moves calm)
            intro tail outcome after reached
            refine ⟨reached.1, placed tail outcome after reached.2 ?_⟩
            intro exc same
            cases same

end

/-- One call of a run, with the boards before it and after it. -/
structure ClockCall where
  op : ClockOp
  before : Board
  trace : List signature.Event
  outcome : Except Exc Reply
  after : Board

/-- A run carries out its calls one after another. A halt can get any answer. -/
inductive ClockRun : Board → List ClockCall → Board → Prop
  | done (board : Board) : ClockRun board [] board
  | next {op : ClockOp} {before middle final : Board} {trace : List signature.Event} {outcome : Except Exc Reply}
      {calls : List ClockCall} (run : Runs boardMachine op.task.toProgram before trace outcome middle)
      (rest : ClockRun middle calls final) : ClockRun before (⟨op, before, trace, outcome, middle⟩ :: calls) final

/-- What each call of a run does. -/
structure ClockCall.Lawful (call : ClockCall) : Prop where
  moves : Moves call.op call.before call.outcome call.after
  status : ∀ pair now, call.op = .evaluate pair now → call.after = call.before ∧
    (∀ status, call.outcome = .ok (.status status) →
      ∃ record, clockOf (call.before .expiry) pair = some record ∧ status = statusOf record now) ∧
    ∀ record, clockOf (call.before .expiry) pair = some record → call.outcome = .ok (.status (statusOf record now))
  halt : HaltLaw call.op.pair call.before call.trace call.outcome call.after

section
variable {A B : Type} {board : Board} {op : ClockOp}

/-- A reply wraps what its program returns. -/
theorem wp_reply {program : Py A} {view : A → B} {post : List signature.Event → Except Exc B → Board → Prop}
    (pre : Fallible.wp boardMachine program (fun trace outcome after => post trace (outcome.map view) after) board) :
    Fallible.wp boardMachine (program >>= fun value => pure (view value)) post board := by
  rw [Fallible.wp_bind]
  apply Fallible.wp_mono pre
  intro trace outcome after reached
  cases outcome with
  | error exc => exact reached
  | ok value =>
      rw [Fallible.after_ok, Fallible.wp_pure, List.append_nil]
      exact reached

/-- A call that moves its clock without a halt is lawful. -/
theorem lawful_of_moves {view : A → Reply} {trace : List signature.Event} {outcome : Except Exc A} {after : Board}
    (kind : ∀ pair now, op ≠ .evaluate pair now) (moves : Moves op board outcome after)
    (halt : HaltLaw op.pair board trace outcome after) :
    ClockCall.Lawful ⟨op, board, trace, outcome.map view, after⟩ where
  moves := moves.map view
  status pair now same := absurd same (kind pair now)
  halt earlier later deployment threadId answer same := by
    obtain ⟨own, clock, first, raised⟩ := halt earlier later deployment threadId answer same
    refine ⟨own, clock, first, ?_⟩
    intro exc failed
    obtain ⟨rfl, unmoved⟩ := raised exc failed
    exact ⟨rfl, unmoved⟩

theorem lawful_of_calm {view : A → Reply} {program : Py A} (kind : ∀ pair now, op ≠ .evaluate pair now)
    (uses : Fallible.Uses Effect.Quiet program)
    (moves : Fallible.wp boardMachine program (fun _ outcome after => Moves op board outcome after) board) :
    Fallible.wp boardMachine (program >>= fun value => pure (view value))
      (fun trace outcome after => ClockCall.Lawful ⟨op, board, trace, outcome, after⟩) board := by
  apply wp_reply
  apply Program.wp_mono (Program.wp_and moves (wp_used uses board))
  intro trace outcome after reached
  exact lawful_of_moves kind reached.1 (haltLaw_of_calm reached.2)

theorem recordWaiting_uses {allowed : Effect → Prop} (reads : allowed (Effect.read .expiry))
    (writes : ∀ data, allowed (Effect.write .expiry data)) (deployment threadId runId : String)
    (now reminderAfter timeoutAfter : Time) :
    Fallible.Uses allowed (recordWaiting deployment threadId runId now reminderAfter timeoutAfter) := by
  unfold recordWaiting
  rw [requireTexts_eq]
  apply Fallible.Uses.bind (Fallible.uses_ofExcept _)
  intro _
  split
  · trivial
  · apply Fallible.Uses.bind
    · exact ⟨reads, fun _ => Fallible.uses_ofExcept _⟩
    · intro data
      dsimp only
      cases ((data.get? deployment).getD Dict.empty).get? threadId with
      | none => exact ⟨writes _, fun _ => trivial⟩
      | some record => trivial

theorem markReminded_uses {allowed : Effect → Prop} (reads : allowed (Effect.read .expiry))
    (writes : ∀ data, allowed (Effect.write .expiry data)) (deployment threadId : String) (now : Time) :
    Fallible.Uses allowed (markReminded deployment threadId now) := by
  apply Fallible.Uses.bind (require_uses reads)
  rintro ⟨data, record⟩
  dsimp only
  split
  · exact ⟨writes _, fun _ => trivial⟩
  · trivial

/-- Each call of a run is lawful. -/
theorem task_lawful (op : ClockOp) (board : Board) : Fallible.wp boardMachine op.task
    (fun trace outcome after => ClockCall.Lawful ⟨op, board, trace, outcome, after⟩) board := by
  cases op with
  | recordWaiting pair runId now reminderAfter timeoutAfter =>
      apply lawful_of_calm
      · exact fun _ _ same => ClockOp.noConfusion same
      · exact @recordWaiting_uses Effect.Quiet rfl (fun _ => rfl) _ _ _ _ _ _
      · apply Fallible.wp_mono (recordWaiting_moves pair runId now reminderAfter timeoutAfter)
        exact fun _ outcome after reached => reached.1
  | evaluate pair now =>
      apply wp_reply
      have quiet : Fallible.Uses Effect.Quiet (evaluate pair.1 pair.2 now) :=
        Fallible.Uses.bind (require_uses rfl) fun _ => trivial
      have calm := wp_used quiet board
      apply Program.wp_mono (Program.wp_and (evaluate_moves pair now) calm)
      rintro trace outcome after ⟨⟨rfl, status, known⟩, quiet⟩
      refine ⟨moves_none _ after _, ?_, haltLaw_of_calm quiet⟩
      intro other later same
      obtain ⟨rfl, rfl⟩ := ClockOp.evaluate.inj same
      refine ⟨rfl, ?_, ?_⟩
      · intro value replied
        cases outcome with
        | error exc => cases replied
        | ok first =>
            obtain rfl := Reply.status.inj (Except.ok.inj replied)
            exact status first rfl
      · intro record recorded
        have returned := known record recorded
        subst returned
        rfl
  | markReminded pair now =>
      apply lawful_of_calm
      · exact fun _ _ same => ClockOp.noConfusion same
      · exact @markReminded_uses Effect.Quiet rfl (fun _ => rfl) _ _ _
      · apply Fallible.wp_mono (markReminded_moves pair now)
        exact fun _ outcome after reached => reached.1
  | resolveApproved pair now =>
      apply lawful_of_calm
      · exact fun _ _ same => ClockOp.noConfusion same
      · exact @dispose_uses pair.1 pair.2 Effect.Quiet rfl (fun _ => rfl) .resumed now
      · have moves := @dispose_moves board (.resolveApproved pair now) .resumed now fun record => .resumed pair now record
        apply Fallible.wp_mono moves
        exact fun _ outcome after reached => reached.1
  | resolveTimedOut pair now =>
      apply wp_reply
      apply Fallible.wp_mono (resolveTimedOut_moves pair now)
      intro trace outcome after reached
      apply lawful_of_moves _ reached.1.1 reached.2
      exact fun _ _ same => ClockOp.noConfusion same

end

end ApprovalExpiry

end Cordboard
