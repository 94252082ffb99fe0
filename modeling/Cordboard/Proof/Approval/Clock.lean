import Cordboard.Proof.Records
import Cordboard.Effects.Budget

namespace Cordboard
open Data Effects

/-- The operation is the halt action of a wait. -/
def Effect.halts : Effect → Bool
  | .call (.halt ..) => true
  | _ => false

abbrev Effect.Quiet (op : Effect) : Prop := op.halts = false

namespace ApprovalExpiry
open PendingCompletions (Pair)

/-- These are the calls on the clocks of a board. -/
inductive ClockOp where
  | recordWaiting (pair : Pair) (runId : String) (now reminderAfter timeoutAfter : Time)
  | evaluate (pair : Pair) (now : Time)
  | markReminded (pair : Pair) (now : Time)
  | resolveApproved (pair : Pair) (now : Time)
  | resolveTimedOut (pair : Pair) (now : Time)

def ClockOp.pair : ClockOp → Pair
  | .recordWaiting pair .. => pair
  | .evaluate pair _ => pair
  | .markReminded pair _ => pair
  | .resolveApproved pair _ => pair
  | .resolveTimedOut pair _ => pair

/-- A call returns the stored record or the status. -/
inductive Reply where
  | record (record : ExpiryRecord)
  | status (status : WaitStatus)
deriving DecidableEq

def ClockOp.task : ClockOp → Py Reply
  | .recordWaiting pair runId now reminderAfter timeoutAfter => do
      let record ← ApprovalExpiry.recordWaiting pair.1 pair.2 runId now reminderAfter timeoutAfter
      pure (.record record)
  | .evaluate pair now => do
      let status ← ApprovalExpiry.evaluate pair.1 pair.2 now
      pure (.status status)
  | .markReminded pair now => do
      let record ← ApprovalExpiry.markReminded pair.1 pair.2 now
      pure (.record record)
  | .resolveApproved pair now => do
      let record ← ApprovalExpiry.resolveApproved pair.1 pair.2 now
      pure (.record record)
  | .resolveTimedOut pair now => do
      let record ← ApprovalExpiry.resolveTimedOut pair.1 pair.2 now
      pure (.record record)

/-- A call leaves the clock of its own pair as it was, or changes it in one of these ways. -/
inductive Change : ClockOp → Option ExpiryRecord → Option ExpiryRecord → Prop
  | same (op : ClockOp) (clock : Option ExpiryRecord) : Change op clock clock
  | started (pair : Pair) (runId : String) (now reminderAfter timeoutAfter : Time) :
      Change (.recordWaiting pair runId now reminderAfter timeoutAfter) none
        (some ⟨runId, now, now + reminderAfter, now + timeoutAfter, false, none, none, none⟩)
  | reminded (pair : Pair) (now : Time) (record : ExpiryRecord) (first : record.reminded = false)
      (open_ : record.disposition = none) :
      Change (.markReminded pair now) (some record) (some { record with reminded := true, remindedAt := some now })
  | resumed (pair : Pair) (now : Time) (record : ExpiryRecord) (open_ : record.disposition = none) :
      Change (.resolveApproved pair now) (some record)
        (some { record with disposition := some .resumed, resolvedAt := some now })
  | halted (pair : Pair) (now : Time) (record : ExpiryRecord) (open_ : record.disposition = none) :
      Change (.resolveTimedOut pair now) (some record)
        (some { record with disposition := some .halted, resolvedAt := some now })

/-- What one call does to the clocks, whatever its outcome. -/
structure Moves {A : Type} (op : ClockOp) (board : Board) (outcome : Except Exc A) (after : Board) : Prop where
  change : Change op (clockOf (board .expiry) op.pair) (clockOf (after .expiry) op.pair)
  others : ∀ pair, pair ≠ op.pair → clockOf (after .expiry) pair = clockOf (board .expiry) pair
  raised : ∀ exc, outcome = .error exc → after = board

/-- A reply keeps what its call did. -/
theorem Moves.map {A B : Type} {op : ClockOp} {board after : Board} {outcome : Except Exc A} (view : A → B)
    (moves : Moves op board outcome after) : Moves op board (outcome.map view) after where
  change := moves.change
  others := moves.others
  raised exc same := by
    cases outcome with
    | error other => exact moves.raised other rfl
    | ok value => cases same

section
variable {board after : Board} {deployment threadId : String} {data : Dict String (Dict String ExpiryRecord)}
  {record : ExpiryRecord}

/-- A call that leaves the board as it was. -/
theorem moves_none {A : Type} (op : ClockOp) (board : Board) (outcome : Except Exc A) : Moves op board outcome board where
  change := .same op _
  others _ _ := rfl
  raised _ _ := rfl

/-- The record of a pair in the decoded file. -/
theorem getD_of_decode (decoded : decode .expiry (board .expiry) = .ok data) :
    ((data.get? deployment).getD Dict.empty).get? threadId = clockOf (board .expiry) (deployment, threadId) := by
  rw [clockOf_of_decode decoded]
  cases data.get? deployment <;> rfl

/-- A write of one record moves the clock of its own pair. -/
theorem moves_write {A : Type} {op : ClockOp} {value : A} (decoded : decode .expiry (board .expiry) = .ok data)
    (change : Change op (clockOf (board .expiry) op.pair) (some record)) :
    Moves op board (.ok value : Except Exc A) (board.put .expiry (Store.expiry.sorted (data.set op.pair.1
      (((data.get? op.pair.1).getD Dict.empty).set op.pair.2 record)))) := by
  have known := clockOf_of_decode decoded
  constructor
  · rw [Board.put_self, clockOf_set, if_pos rfl]
    exact change
  · intro pair different
    rw [Board.put_self, clockOf_set, if_neg different, known]
  · intro exc same
    cases same

/-- The pure part of a lookup reads the file. -/
def found (file : File (Dict String (Dict String ExpiryRecord))) (deployment threadId : String) :
    Except Exc (Dict String (Dict String ExpiryRecord) × ExpiryRecord) :=
  match decode .expiry file with
  | .error exc => .error exc
  | .ok data =>
      match ((data.get? deployment).getD Dict.empty).get? threadId with
      | none => .error ⟨.unknownWaitingApproval, "no waiting approval recorded for " ++ deployment ++ "/" ++ threadId⟩
      | some record => .ok (data, record)

/-- A lookup is one read. -/
@[simp] theorem wp_require (post : List signature.Event →
      Except Exc (Dict String (Dict String ExpiryRecord) × ExpiryRecord) → Board → Prop) :
    Fallible.wp boardMachine (require deployment threadId) post board ↔
      post [⟨Effect.read .expiry, board .expiry⟩] (found (board .expiry) deployment threadId) board := by
  have stepped : Fallible.wp boardMachine (require deployment threadId) post board ↔
      Fallible.after boardMachine (fun data => match ((data.get? deployment).getD Dict.empty).get? threadId with
        | none =>
            raise .unknownWaitingApproval ("no waiting approval recorded for " ++ deployment ++ "/" ++ threadId)
        | some record => pure (data, record)) post [⟨Effect.read .expiry, board .expiry⟩]
          (decode .expiry (board .expiry)) board := by
    rw [require, Fallible.wp_bind, loadApprovalExpiry, wp_load]
    constructor
    · exact fun pre => pre.2 _ _ ⟨rfl, rfl⟩
    · refine fun reached => ⟨trivial, ?_⟩
      rintro file after ⟨rfl, rfl⟩
      exact reached
  rw [stepped, found]
  cases decode .expiry (board .expiry) with
  | error exc => rfl
  | ok data =>
      dsimp only
      rw [Fallible.after_ok]
      cases ((data.get? deployment).getD Dict.empty).get? threadId <;> rfl

theorem found_ok (reads : found (board .expiry) deployment threadId = .ok (data, record)) :
    decode .expiry (board .expiry) = .ok data ∧ clockOf (board .expiry) (deployment, threadId) = some record := by
  unfold found at reads
  cases decoded : decode .expiry (board .expiry) with
  | error exc =>
      rw [decoded] at reads
      cases reads
  | ok stored =>
      rw [decoded] at reads
      dsimp only at reads
      have own := @getD_of_decode board deployment threadId stored decoded
      cases inside : ((stored.get? deployment).getD Dict.empty).get? threadId with
      | none =>
          rw [inside] at reads
          cases reads
      | some other =>
          rw [inside] at reads own
          obtain ⟨rfl, rfl⟩ := Prod.mk.inj (Except.ok.inj reads)
          exact ⟨rfl, own.symm⟩

/-- A recorded clock is found. -/
theorem found_of_clock (recorded : clockOf (board .expiry) (deployment, threadId) = some record) :
    ∃ data, found (board .expiry) deployment threadId = .ok (data, record) := by
  cases decoded : decode .expiry (board .expiry) with
  | error exc =>
      have missing : clockOf (board .expiry) (deployment, threadId) = none := by
        cases held : board .expiry with
        | missing => rfl
        | unreadable corruption => rfl
        | content data =>
            rw [held] at decoded
            cases decoded
      rw [missing] at recorded
      cases recorded
  | ok data =>
      have own := @getD_of_decode board deployment threadId data decoded
      rw [recorded] at own
      refine ⟨data, ?_⟩
      simp only [found, decoded, own]

theorem recordWaiting_moves (pair : Pair) (runId : String) (now reminderAfter timeoutAfter : Time) :
    Fallible.wp boardMachine (recordWaiting pair.1 pair.2 runId now reminderAfter timeoutAfter) (fun _ outcome after =>
      Moves (.recordWaiting pair runId now reminderAfter timeoutAfter) board outcome after ∧
      ∀ record, outcome = .ok record → clockOf (after .expiry) pair = some record) board := by
  apply wp_checkedTexts
  · intro _
    split
    · refine ⟨moves_none _ board _, ?_⟩
      intro record same
      cases same
    · apply wp_loaded .expiry
      · intro _ data decoded
        have own := @getD_of_decode board pair.1 pair.2 data decoded
        dsimp only
        cases stored : ((data.get? pair.1).getD Dict.empty).get? pair.2 with
        | some record =>
            refine ⟨moves_none _ board _, ?_⟩
            intro other same
            obtain rfl := Except.ok.inj same
            exact own.symm.trans stored
        | none =>
            have fresh : clockOf (board .expiry) pair = none := own.symm.trans stored
            simp only []
            rw [Fallible.wp_bind, wp_writeAtomic]
            refine ⟨trivial, ?_⟩
            rintro _ rfl
            constructor
            · have started := Change.started pair runId now reminderAfter timeoutAfter
              rw [← fresh] at started
              exact moves_write decoded started
            · intro other same
              obtain rfl := Except.ok.inj same
              rw [Board.put_self, clockOf_set, if_pos rfl]
      · intro _ exc _
        refine ⟨moves_none _ board _, ?_⟩
        intro record same
        cases same
  · intro exc _
    refine ⟨moves_none _ board _, ?_⟩
    intro record same
    cases same

theorem evaluate_moves (pair : Pair) (now : Time) : Fallible.wp boardMachine (evaluate pair.1 pair.2 now)
    (fun _ outcome after => after = board ∧ (∀ status, outcome = .ok status → ∃ record,
      clockOf (board .expiry) pair = some record ∧ status = statusOf record now) ∧
      ∀ record, clockOf (board .expiry) pair = some record → outcome = .ok (statusOf record now)) board := by
  rw [evaluate, Fallible.wp_bind, wp_require]
  cases reads : found (board .expiry) pair.1 pair.2 with
  | error exc =>
      refine ⟨rfl, ?_, ?_⟩
      · intro status same
        cases same
      · intro record recorded
        obtain ⟨data, present⟩ := @found_of_clock board pair.1 pair.2 record recorded
        rw [present] at reads
        cases reads
  | ok item =>
      obtain ⟨_, own⟩ := found_ok reads
      refine ⟨rfl, ?_, ?_⟩
      · intro status same
        exact ⟨item.2, own, (Except.ok.inj same).symm⟩
      · intro record recorded
        obtain rfl := Option.some.inj (own.symm.trans recorded)
        rfl

theorem markReminded_moves (pair : Pair) (now : Time) : Fallible.wp boardMachine (markReminded pair.1 pair.2 now)
    (fun _ outcome after => Moves (.markReminded pair now) board outcome after ∧
      ∀ record, outcome = .ok record → clockOf (after .expiry) pair = some record) board := by
  rw [markReminded, Fallible.wp_bind, wp_require]
  cases reads : found (board .expiry) pair.1 pair.2 with
  | error exc =>
      refine ⟨moves_none _ board _, ?_⟩
      intro record same
      cases same
  | ok item =>
      obtain ⟨data, record⟩ := item
      obtain ⟨decoded, own⟩ := found_ok reads
      rw [Fallible.after_ok]
      dsimp only
      split
      · rename_i due
        rw [Fallible.wp_bind, wp_writeAtomic]
        refine ⟨trivial, ?_⟩
        rintro _ rfl
        have reminded := Change.reminded pair now record (by simpa using due.1) (by simpa using due.2)
        rw [← own] at reminded
        refine ⟨moves_write decoded reminded, ?_⟩
        intro other same
        obtain rfl := Except.ok.inj same
        rw [Board.put_self, clockOf_set, if_pos rfl]
      · refine ⟨moves_none _ board _, ?_⟩
        intro other same
        obtain rfl := Except.ok.inj same
        exact own

/-- A disposition moves the clock of its pair when there is none yet. -/
theorem dispose_moves {op : ClockOp} (disposition : Disposition) (now : Time)
    (change : ∀ record, record.disposition = none → Change op (some record)
      (some { record with disposition := some disposition, resolvedAt := some now })) :
    Fallible.wp boardMachine (dispose op.pair.1 op.pair.2 disposition now) (fun _ outcome after =>
      Moves op board outcome after ∧ ∀ record, outcome = .ok record → clockOf (after .expiry) op.pair = some record)
      board := by
  apply dispose_ends
  · intro exc _ _ _ _
    refine ⟨moves_none _ board _, ?_⟩
    intro record same
    cases same
  · intro record _ _ own _
    refine ⟨moves_none _ board _, ?_⟩
    intro other same
    obtain rfl := Except.ok.inj same
    exact own
  · intro record data after _ own open_ _ clocks
    have here := clocks op.pair
    rw [if_pos rfl] at here
    refine ⟨⟨?_, ?_, ?_⟩, ?_⟩
    · rw [here, own]
      exact change record open_
    · intro pair different
      rw [clocks, if_neg different]
    · intro exc same
      cases same
    · intro other same
      obtain rfl := Except.ok.inj same
      exact here
  · intro exc _
    refine ⟨moves_none _ board _, ?_⟩
    intro record same
    cases same

theorem require_uses {allowed : Effect → Prop} (reads : allowed (Effect.read .expiry)) :
    Fallible.Uses allowed (require deployment threadId) := by
  apply Fallible.Uses.bind
  · exact ⟨reads, fun _ => Fallible.uses_ofExcept _⟩
  · intro data
    cases ((data.get? deployment).getD Dict.empty).get? threadId <;> trivial

theorem dispose_uses {allowed : Effect → Prop} (reads : allowed (Effect.read .expiry))
    (writes : ∀ data, allowed (Effect.write .expiry data)) (disposition : Disposition) (now : Time) :
    Fallible.Uses allowed (dispose deployment threadId disposition now) := by
  apply Fallible.Uses.bind
  · exact ⟨reads, fun _ => Fallible.uses_ofExcept _⟩
  · intro data
    dsimp only
    cases ((data.get? deployment).getD Dict.empty).get? threadId with
    | none => trivial
    | some record =>
        by_cases open_ : record.disposition.isNone = true
        · simp only [open_, if_true]
          exact ⟨writes _, fun _ => trivial⟩
        · simp only [open_, Bool.false_eq_true, if_false]
          trivial

end

end ApprovalExpiry

end Cordboard
