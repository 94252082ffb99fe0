import Cordboard.Proof.Approval.ClockRun
import Cordboard.Proof.Script

namespace Cordboard
open Data Effects

namespace ApprovalExpiry
open PendingCompletions (Pair)

/-- A recorded clock keeps its identity and its deadlines, its reminder, and its disposition. -/
def Kept (first second : Option ExpiryRecord) : Prop :=
  ∀ record, first = some record → ∃ later, second = some later ∧
    later.runId = record.runId ∧ later.waitingSince = record.waitingSince ∧ later.reminderAt = record.reminderAt ∧
    later.timeoutAt = record.timeoutAt ∧ (record.reminded = true → later.reminded = true) ∧
    (record.disposition ≠ none → later = record)

theorem Kept.refl (clock : Option ExpiryRecord) : Kept clock clock :=
  fun record same => ⟨record, same, rfl, rfl, rfl, rfl, id, fun _ => rfl⟩

theorem Kept.trans {first second third : Option ExpiryRecord} (one : Kept first second) (two : Kept second third) :
    Kept first third := by
  intro record same
  obtain ⟨middle, next, run, since, reminder, timeout, reminded, decided⟩ := one record same
  obtain ⟨later, last, run', since', reminder', timeout', reminded', decided'⟩ := two middle next
  refine ⟨later, last, run'.trans run, since'.trans since, reminder'.trans reminder, timeout'.trans timeout,
    fun own => reminded' (reminded own), fun own => ?_⟩
  obtain rfl := decided own
  exact decided' own

theorem Change.kept {op : ClockOp} {first second : Option ExpiryRecord} (change : Change op first second) :
    Kept first second := by
  intro record same
  cases change with
  | same => exact Kept.refl first record same
  | started => cases same
  | reminded pair now old unmarked open_ =>
      obtain rfl := Option.some.inj same
      exact ⟨_, rfl, rfl, rfl, rfl, rfl, fun _ => rfl, fun decided => absurd open_ decided⟩
  | resumed pair now old open_ =>
      obtain rfl := Option.some.inj same
      exact ⟨_, rfl, rfl, rfl, rfl, rfl, id, fun decided => absurd open_ decided⟩
  | halted pair now old open_ =>
      obtain rfl := Option.some.inj same
      exact ⟨_, rfl, rfl, rfl, rfl, rfl, id, fun decided => absurd open_ decided⟩

/-- The call stores a disposition of the pair. -/
def ClockCall.Disposes (call : ClockCall) (pair : Pair) : Prop :=
  ∃ record later, clockOf (call.before .expiry) pair = some record ∧ record.disposition = none ∧
    clockOf (call.after .expiry) pair = some later ∧ later.disposition ≠ none

/-- The call marks the reminder of the pair and changes its clock. -/
def ClockCall.Reminds (call : ClockCall) (pair : Pair) : Prop :=
  (∃ now, call.op = .markReminded pair now) ∧ clockOf (call.after .expiry) pair ≠ clockOf (call.before .expiry) pair

def WaitStatus.rank : WaitStatus → Nat
  | .waiting => 0
  | .reminderDue => 1
  | .timeoutDue => 2
  | .resolved => 3

section
variable {call : ClockCall} {calls : List ClockCall} {start final : Board} {pair : Pair}

theorem ClockCall.Lawful.kept (lawful : call.Lawful) (pair : Pair) :
    Kept (clockOf (call.before .expiry) pair) (clockOf (call.after .expiry) pair) := by
  by_cases own : pair = call.op.pair
  · subst own
    exact lawful.moves.change.kept
  · rw [lawful.moves.others pair own]
    exact .refl _

/-- A reminder takes effect on a clock that has neither a reminder nor a disposition. -/
theorem ClockCall.Lawful.reminds (lawful : call.Lawful) (reminds : call.Reminds pair) :
    ∃ record later, clockOf (call.before .expiry) pair = some record ∧ record.reminded = false ∧
      record.disposition = none ∧ clockOf (call.after .expiry) pair = some later ∧ later.reminded = true := by
  obtain ⟨⟨now, kind⟩, changed⟩ := reminds
  have change := lawful.moves.change
  rw [kind] at change
  change Change (.markReminded pair now) (clockOf (call.before .expiry) pair) (clockOf (call.after .expiry) pair) at change
  generalize clockOf (call.before .expiry) pair = first at change changed ⊢
  generalize clockOf (call.after .expiry) pair = second at change changed ⊢
  cases change with
  | same => exact absurd rfl changed
  | reminded _ _ record unmarked open_ => exact ⟨record, _, rfl, unmarked, open_, rfl, rfl⟩

theorem ClockRun.lawful (run : ClockRun start calls final) : ∀ call ∈ calls, call.Lawful := by
  induction run with
  | done board => simp
  | next run rest ih => exact List.forall_mem_cons.mpr ⟨Fallible.wp_runs (task_lawful _ _) run, ih⟩

/-- Every later board keeps the clocks of the start. -/
theorem ClockRun.kept (run : ClockRun start calls final) : ∀ call ∈ calls,
    Kept (clockOf (start .expiry) pair) (clockOf (call.before .expiry) pair) ∧
      Kept (clockOf (start .expiry) pair) (clockOf (call.after .expiry) pair) := by
  induction run with
  | done board => simp
  | next run rest ih =>
      have first := (Fallible.wp_runs (task_lawful _ _) run).kept pair
      intro call member
      rcases List.mem_cons.mp member with rfl | inside
      · exact ⟨.refl _, first⟩
      · obtain ⟨before, after⟩ := ih call inside
        exact ⟨first.trans before, first.trans after⟩

/-- Every later call starts from the clocks of an earlier call. -/
theorem ClockRun.ordered (run : ClockRun start calls final) : calls.Pairwise fun first second =>
    Kept (clockOf (first.after .expiry) pair) (clockOf (second.before .expiry) pair) := by
  induction run with
  | done board => exact .nil
  | next run rest ih => exact List.pairwise_cons.mpr ⟨fun call member => (rest.kept call member).1, ih⟩

/-- The boards of a run keep the clocks of the earlier boards. -/
theorem ClockRun.boards (run : ClockRun start calls final) : (start :: calls.map ClockCall.after).Pairwise
    fun earlier later => Kept (clockOf (earlier .expiry) pair) (clockOf (later .expiry) pair) := by
  induction run with
  | done board => exact List.pairwise_singleton _ _
  | next run rest ih =>
      refine List.pairwise_cons.mpr ⟨?_, ih⟩
      intro board member
      obtain ⟨call, inside, rfl⟩ := List.mem_map.mp member
      exact ((ClockRun.next run rest).kept call inside).2

/-- A status with a disposition is resolved. -/
theorem statusOf_resolved {record : ExpiryRecord} {now : Time} :
    statusOf record now = .resolved ↔ record.disposition.isSome = true := by
  unfold statusOf
  split_ifs <;> simp [*]

/-- A later status at a later time is not behind, and a resolved clock stays resolved. -/
theorem statusOf_forward {record later : ExpiryRecord} {now next : Time} (kept : Kept (some record) (some later)) :
    (now ≤ next → (statusOf record now).rank ≤ (statusOf later next).rank) ∧
      (statusOf record now = .resolved → statusOf later next = .resolved) := by
  obtain ⟨other, same, _, _, reminder, timeout, _, decided⟩ := kept record rfl
  obtain rfl := Option.some.inj same
  have stays : record.disposition.isSome = true → later.disposition.isSome = true := by
    intro own
    rwa [decided (Option.isSome_iff_ne_none.mp own)]
  refine ⟨fun order => ?_, fun resolved => statusOf_resolved.mpr (stays (statusOf_resolved.mp resolved))⟩
  by_cases closed : later.disposition.isSome = true
  · rw [statusOf_resolved.mpr closed]
    cases statusOf record now <;> decide
  · have open_ : ¬ record.disposition.isSome = true := fun own => closed (stays own)
    unfold statusOf
    rw [if_neg closed, if_neg open_, reminder, timeout]
    by_cases due : record.timeoutAt ≤ now
    · rw [if_pos due, if_pos (Rat.le_trans due order)]
    · rw [if_neg due]
      by_cases soon : record.reminderAt ≤ now
      · rw [if_pos soon, if_pos (Rat.le_trans soon order)]
        split_ifs <;> decide
      · rw [if_neg soon]
        split_ifs <;> decide

end

/-- These are the laws of the clock of one pair over a run. -/
structure ClockLaw (start : Board) (calls : List ClockCall) (pair : Pair) : Prop where
  fixed : (start :: calls.map ClockCall.after).Pairwise fun earlier later =>
    ∀ record, clockOf (earlier .expiry) pair = some record → ∃ next, clockOf (later .expiry) pair = some next ∧
      next.runId = record.runId ∧ next.waitingSince = record.waitingSince ∧ next.reminderAt = record.reminderAt ∧
      next.timeoutAt = record.timeoutAt ∧
      ∀ disposition, record.disposition = some disposition →
        next.disposition = some disposition ∧ next.resolvedAt = record.resolvedAt
  disposed : calls.Pairwise fun first second => first.Disposes pair → ¬ second.Disposes pair
  halted : ∀ call ∈ calls, HaltLaw call.op.pair call.before call.trace call.outcome call.after
  reminded : calls.Pairwise fun first second => first.Reminds pair → ¬ second.Reminds pair
  undecided : ∀ call ∈ calls, call.Reminds pair →
    ∃ record, clockOf (call.before .expiry) pair = some record ∧ record.disposition = none
  evaluated : ∀ call ∈ calls, ∀ now, call.op = .evaluate pair now →
    call.after = call.before ∧ ∀ record, clockOf (call.before .expiry) pair = some record →
      call.outcome = .ok (.status (statusOf record now))
  forward : calls.Pairwise fun first second => ∀ now next status, first.op = .evaluate pair now →
    first.outcome = .ok (.status status) → second.op = .evaluate pair next →
      ∃ later, second.outcome = .ok (.status later) ∧ (now ≤ next → status.rank ≤ later.rank) ∧
        (status = .resolved → later = .resolved)
  apart : ∀ call ∈ calls, call.op.pair ≠ pair → clockOf (call.after .expiry) pair = clockOf (call.before .expiry) pair

/-- Each run obeys the laws of each clock. -/
theorem approval_clock {start final : Board} {calls : List ClockCall} (run : ClockRun start calls final) (pair : Pair) :
    ClockLaw start calls pair := by
  have lawful := run.lawful
  have ordered := @ClockRun.ordered calls start final pair run
  refine ⟨?_, ?_, fun call member => (lawful call member).halt, ?_, ?_, ?_, ?_, ?_⟩
  · apply (@ClockRun.boards calls start final pair run).imp
    intro earlier later kept record recorded
    obtain ⟨next, found, runId, since, reminder, timeout, _, decided⟩ := kept record recorded
    refine ⟨next, found, runId, since, reminder, timeout, ?_⟩
    intro disposition stored
    obtain rfl := decided (by rw [stored]; exact Option.some_ne_none _)
    exact ⟨stored, rfl⟩
  · apply ordered.imp
    rintro first second kept ⟨_, record, _, _, stored, closed⟩ ⟨other, _, found, open_, _, _⟩
    obtain ⟨later, next, _, _, _, _, _, decided⟩ := kept record stored
    obtain rfl := Option.some.inj (found.symm.trans next)
    rw [decided closed] at open_
    exact closed open_
  · apply (List.Pairwise.and_mem.mp ordered).imp
    rintro first second ⟨one, two, kept⟩ reminds again
    obtain ⟨_, record, _, _, _, stored, marked⟩ := (lawful first one).reminds reminds
    obtain ⟨other, _, found, unmarked, _, _, _⟩ := (lawful second two).reminds again
    obtain ⟨later, next, _, _, _, _, reminded, _⟩ := kept record stored
    obtain rfl := Option.some.inj (found.symm.trans next)
    rw [reminded marked] at unmarked
    cases unmarked
  · intro call member reminds
    obtain ⟨record, _, found, _, open_, _, _⟩ := (lawful call member).reminds reminds
    exact ⟨record, found, open_⟩
  · intro call member now kind
    obtain ⟨unmoved, _, known⟩ := (lawful call member).status pair now kind
    exact ⟨unmoved, known⟩
  · apply (List.Pairwise.and_mem.mp ordered).imp
    rintro first second ⟨one, two, kept⟩ now next status kind replied again
    obtain ⟨unmoved, read, _⟩ := (lawful first one).status pair now kind
    obtain ⟨record, stored, rfl⟩ := read status replied
    rw [unmoved] at kept
    obtain ⟨later, found, _⟩ := kept record stored
    obtain ⟨_, _, known⟩ := (lawful second two).status pair next again
    rw [stored, found] at kept
    obtain ⟨forward, resolved⟩ := @statusOf_forward record later now next kept
    exact ⟨_, known later found, forward, resolved⟩
  · exact fun call member different => (lawful call member).moves.others pair (Ne.symm different)

section Example

/-- A plan carries out its calls one after another. Each call has a script that answers a halt. -/
def playClock : List (ClockOp × Script) → Board → List ClockCall × Board
  | [], board => ([], board)
  | (op, script) :: rest, board =>
      let result := script.exec op.task board
      let later := playClock rest result.final
      (⟨op, board, result.trace, result.value, result.final⟩ :: later.1, later.2)

theorem playClock_run (plan : List (ClockOp × Script)) (board : Board) :
    ClockRun board (playClock plan board).1 (playClock plan board).2 := by
  induction plan generalizing board with
  | nil => exact .done board
  | cons item rest ih => exact .next (Script.exec_runs item.2 item.1.task board) (ih _)

/-- In this script the transport of a halt fails. -/
def flaky : Script := fun past target =>
  match target with
  | .halt .. => .error ⟨.runtime, "ambiguous transport"⟩
  | other => calm past other

/-- A wait is reminded and halted. The first halt fails, and a late answer comes after the second one. -/
def haltedPlan : List (ClockOp × Script) :=
  [(.recordWaiting ("d", "t") "r" 0 10 20, calm), (.evaluate ("d", "t") 5, calm), (.markReminded ("d", "t") 12, calm),
    (.evaluate ("d", "t") 12, calm), (.resolveTimedOut ("d", "t") 25, flaky), (.evaluate ("d", "t") 25, calm),
    (.resolveTimedOut ("d", "t") 30, calm), (.resolveApproved ("d", "t") 31, calm), (.evaluate ("d", "t") 31, calm)]

theorem approval_clock_halted :
    ClockLaw (fun _ => .missing) (playClock haltedPlan fun _ => .missing).1 ("d", "t") ∧
    (playClock haltedPlan fun _ => .missing).1.map ClockCall.outcome =
      [.ok (.record ⟨"r", 0, 10, 20, false, none, none, none⟩), .ok (.status .waiting),
        .ok (.record ⟨"r", 0, 10, 20, true, some 12, none, none⟩), .ok (.status .reminderDue),
        .error ⟨.runtime, "ambiguous transport"⟩, .ok (.status .timeoutDue),
        .ok (.record ⟨"r", 0, 10, 20, true, some 12, some .halted, some 30⟩),
        .ok (.record ⟨"r", 0, 10, 20, true, some 12, some .halted, some 30⟩), .ok (.status .resolved)] := by
  constructor
  · exact approval_clock (playClock_run haltedPlan fun _ => .missing) ("d", "t")
  · decide +kernel

end Example

end ApprovalExpiry

end Cordboard
