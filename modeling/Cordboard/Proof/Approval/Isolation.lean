import Cordboard.Proof.Approval.Scan
import Cordboard.Proof.Approval.Shapes
import Cordboard.Proof.Script

namespace Cordboard
open Data Effects

/-- The outcome is a value or a `RuntimeError`. -/
def Passes {A : Type} (outcome : Except Exc A) : Prop := ∀ exc, outcome = .error exc → exc.isRuntimeError = true

section
variable {A B : Type}

theorem passes_ok (value : A) : Passes (.ok value) := by
  intro exc same
  cases same

theorem passes_bind {first : Except Exc A} {rest : A → Except Exc B} :
    Passes (first >>= rest) ↔ Passes first ∧ ∀ value, first = .ok value → Passes (rest value) := by
  cases first with
  | ok value =>
      constructor
      · intro passes
        refine ⟨passes_ok value, ?_⟩
        intro other same
        obtain rfl := Except.ok.inj same
        exact passes
      · exact fun passes => passes.2 value rfl
  | error exc =>
      constructor
      · intro passes
        refine ⟨fun other same => passes other ?_, fun value same => ?_⟩
        · obtain rfl := Except.error.inj same
          rfl
        · cases same
      · intro passes other same
        obtain rfl := Except.error.inj same
        exact passes.1 exc rfl

/-- A program without `RuntimeError` passes exactly when it returns. -/
theorem passes_iff {outcome : Except Exc A} (strict : ∀ exc, outcome = .error exc → exc.isRuntimeError = false) :
    Passes outcome ↔ ∃ value, outcome = .ok value := by
  cases outcome with
  | ok value => exact ⟨fun _ => ⟨value, rfl⟩, fun _ => passes_ok value⟩
  | error exc =>
      constructor
      · intro passes
        have runtime := passes exc rfl
        rw [strict exc rfl] at runtime
        cases runtime
      · rintro ⟨value, same⟩
        cases same

theorem strict_bind {first : Except Exc A} {rest : A → Except Exc B}
    (one : ∀ exc, first = .error exc → exc.isRuntimeError = false)
    (two : ∀ value exc, rest value = .error exc → exc.isRuntimeError = false) :
    ∀ exc, (first >>= rest) = .error exc → exc.isRuntimeError = false := by
  intro exc failed
  cases first with
  | ok value => exact two value exc failed
  | error other =>
      obtain rfl := Except.error.inj failed
      exact one other rfl

end

namespace Json
variable {value default_ : Json} {name : String}

theorem getField_strict : ∀ exc, value.getField name = .error exc → exc.isRuntimeError = false := by
  intro exc failed
  cases value with
  | obj members => cases failed
  | _ =>
      obtain rfl := Except.error.inj failed
      rfl

theorem getOr_strict : ∀ exc, value.getOr name default_ = .error exc → exc.isRuntimeError = false := by
  intro exc failed
  cases value with
  | obj members => cases failed
  | _ =>
      obtain rfl := Except.error.inj failed
      rfl

theorem index_strict : ∀ exc, value.index name = .error exc → exc.isRuntimeError = false := by
  intro exc failed
  cases value with
  | obj members =>
      unfold index at failed
      dsimp only at failed
      split at failed
      · cases failed
      · obtain rfl := Except.error.inj failed
        rfl
  | _ =>
      obtain rfl := Except.error.inj failed
      rfl

end Json

namespace AegraClient
variable {threadId runId : String} {answer : Option Json} {info : Description}

theorem describe_strict {run : Json} : ∀ exc, describe run = .error exc → exc.isRuntimeError = false := by
  apply strict_bind Json.getField_strict
  intro config
  apply strict_bind Json.getOr_strict
  intro configurable
  apply strict_bind Json.getField_strict
  intro subject
  apply strict_bind Json.index_strict
  intro assistantId
  apply strict_bind Json.index_strict
  intro status exc failed
  cases failed

theorem passes_describeRun : Passes (describeRun answer threadId runId) ↔
    blank threadId = false ∧ blank runId = false ∧ ∀ run, answer = some run → shapedRun run = true := by
  unfold describeRun
  split
  · rename_i empty
    rw [passes_iff fun exc same => by obtain rfl := Except.error.inj same; rfl]
    simp [empty]
  · rename_i thread
    split
    · rename_i empty
      rw [passes_iff fun exc same => by obtain rfl := Except.error.inj same; rfl]
      simp [empty]
    · rename_i invocation
      have requested_ : Passes (requested answer) := by
        intro exc same
        cases answer with
        | some run => cases same
        | none =>
            obtain rfl := Except.error.inj same
            rfl
      rw [passes_bind]
      simp only [requested_, true_and, passes_iff describe_strict, describe_returns, thread, invocation]
      constructor
      · rintro shaped run rfl
        exact shaped run rfl
      · intro shaped run same
        apply shaped
        cases answer with
        | some other =>
            obtain rfl := Except.ok.inj same
            rfl
        | none => cases same

theorem describeRun_ok (thread : blank threadId = false) (invocation : blank runId = false) :
    describeRun answer threadId runId = .ok info ↔ ∃ run, answer = some run ∧ describe run = .ok info := by
  rw [describeRun, if_neg (ne_true_of_eq_false thread), if_neg (ne_true_of_eq_false invocation), bind_ok]
  cases answer with
  | some run => simp [requested]
  | none => simp [requested]

theorem passes_runtimeStatus {status : Json} : Passes (runtimeStatus status) ↔ status.hashable = true := by
  unfold runtimeStatus
  split
  · rename_i known
    simp only [known, iff_true]
    split <;> exact passes_ok _
  · rename_i container
    rw [passes_iff fun exc same => by obtain rfl := Except.error.inj same; rfl]
    simp [container]

theorem runtimeStatus_interrupted {status : Json} :
    runtimeStatus status = .ok .interrupted ↔ status = .str "interrupted" := by
  cases status with
  | str raw =>
      have known : runtimeStatus (.str raw) = .ok (AegraBackend.rawStatus raw) := rfl
      rw [known, Except.ok.injEq, Json.str.injEq, AegraBackend.rawStatus]
      constructor
      · intro same
        repeat' split at same
        all_goals first | assumption | cases same
      · rintro rfl
        rfl
  | _ => simp [runtimeStatus, Json.hashable]

end AegraClient

namespace ApprovalInbox
open AegraClient

/-- The clock of a Thread can be started. -/
structure ClockReady (board : Board) (deployment threadId runId : String) (settings : Waiting) : Prop where
  alias_ : blank deployment = false
  thread : blank threadId = false
  run : blank runId = false
  ordered : settings.reminderAfter ≤ settings.timeoutAfter
  readable : ∃ data, decode .expiry (board .expiry) = .ok data

/-- The state of an interrupted Thread can be reported. -/
structure OrderlyState (board : Board) (deployment threadId runId : String) (settings : Waiting) (state : Json) : Prop where
  shaped : shapedState state = true
  clock : stateWaits state = true → ClockReady board deployment threadId runId settings
  checkpoint : stateWaits state = true → shapedCheckpoint state = true

/-- Each answer about an invocation is a failure or has the expected shape. -/
structure OrderlyAnswers (board : Board) (deployment threadId latest runId : String) (settings : Waiting)
    (replies : Replies) : Prop where
  thread : blank threadId = false
  invocation : blank latest = false
  shaped : ∀ run, replies.statusRun threadId latest = some run →
    shapedRun run = true ∧ (run.member "status" .null).hashable = true
  again : ∀ run, replies.statusRun threadId latest = some run → run.member "status" .null = .str "interrupted" →
    ∀ other, replies.run threadId latest = some other → shapedRun other = true
  state : ∀ run, replies.statusRun threadId latest = some run → run.member "status" .null = .str "interrupted" →
    ∀ other, replies.run threadId latest = some other → ∀ state, replies.state threadId = some state →
      OrderlyState board deployment threadId runId settings state

/-- The Thread has an invocation with orderly answers. -/
def OrderlyThread (board : Board) (deployment threadId : String) (record : LogicalRun) (settings : Waiting)
    (replies : Replies) : Prop :=
  ∃ latest, record.apiRunIds.getLast? = some latest ∧
    OrderlyAnswers board deployment threadId latest record.runId settings replies

section
variable {board : Board} {deployment threadId latest : String} {record : LogicalRun} {settings : Waiting}
  {replies : Replies} {state : Json}

theorem clockReads_ok : clockReads board = .ok () ↔ ∃ data, decode .expiry (board .expiry) = .ok data := by
  unfold clockReads
  cases decode .expiry (board .expiry) with
  | ok data => simp [Except.map]
  | error exc => simp [Except.map]

theorem clockOutcome_ok {runId : String} : clockOutcome (clockReads board) deployment threadId runId settings = .ok () ↔
    ClockReady board deployment threadId runId settings := by
  unfold clockOutcome
  rw [bind_ok]
  constructor
  · rintro ⟨_, checked, rest⟩
    have texts := checkTexts_ok checked
    split at rest
    · cases rest
    · rename_i ordered
      exact ⟨texts ("deployment alias", deployment) (by simp), texts ("thread ID", threadId) (by simp),
        texts ("run ID", runId) (by simp), Rat.not_lt.mp ordered, clockReads_ok.mp rest⟩
  · intro ready
    refine ⟨(), ?_, ?_⟩
    · simp [checkTexts, ready.alias_, ready.thread, ready.run]
    · rw [if_neg (Rat.not_lt.mpr ready.ordered)]
      exact clockReads_ok.mpr ready.readable

theorem waitingInterrupt_ok {info : Description} {revision interrupt : Json} {found : WaitingInterrupt} :
    waitingInterrupt deployment threadId record info revision interrupt = .ok found ↔ interrupt.has "id" = true ∧
      found = ⟨deployment, info.assistantId, info.subject, record.runId, threadId, interrupt.member "id" .null,
        interrupt.member "value" .null, revision⟩ := by
  simp only [waitingInterrupt, bind_ok, Json.index_ok, Json.getField_ok]
  constructor
  · rintro ⟨_, ⟨present, rfl⟩, _, ⟨_, rfl⟩, same⟩
    obtain rfl := Except.ok.inj same
    exact ⟨present, rfl⟩
  · rintro ⟨present, rfl⟩
    exact ⟨_, ⟨present, rfl⟩, _, ⟨Json.isDict_of_has present, rfl⟩, rfl⟩

theorem interrupts_return {info : Description} {revision : Json} {interrupts : List Json} :
    (∃ found, interrupts.mapM (waitingInterrupt deployment threadId record info revision) = .ok found) ↔
      (interrupts.all fun interrupt => interrupt.has "id") = true := by
  induction interrupts with
  | nil => simp [pure, Except.pure]
  | cons interrupt rest ih =>
      rw [List.all_cons, Bool.and_eq_true, ← ih]
      simp only [List.mapM_cons, bind_ok, waitingInterrupt_ok]
      constructor
      · rintro ⟨_, _, ⟨present, rfl⟩, others, later, _⟩
        exact ⟨present, others, later⟩
      · rintro ⟨present, others, later⟩
        exact ⟨_, _, ⟨present, rfl⟩, others, later, rfl⟩

/-- The interrupts of a report name its Deployment and its Thread. -/
theorem interrupts_named {info : Description} {revision : Json} {interrupts : List Json} {found : List WaitingInterrupt}
    (read : interrupts.mapM (waitingInterrupt deployment threadId record info revision) = .ok found) :
    ∀ item ∈ found, item.deployment = deployment := by
  induction interrupts generalizing found with
  | nil =>
      obtain rfl := Except.ok.inj read
      simp
  | cons interrupt rest ih =>
      rw [List.mapM_cons] at read
      obtain ⟨first, one, later⟩ := bind_ok.mp read
      obtain ⟨others, two, same⟩ := bind_ok.mp later
      obtain rfl := Except.ok.inj same
      obtain ⟨_, rfl⟩ := waitingInterrupt_ok.mp one
      intro item member
      rcases List.mem_cons.mp member with rfl | member
      · rfl
      · exact ih two item member

/-- The report of a state is computed after the `try` block. -/
def stateFound (board : Board) (deployment threadId : String) (record : LogicalRun) (settings : Waiting)
    (info : Description) (state : Json) : Except Exc (List WaitingInterrupt) := do
  let interrupts ← interruptsOf state
  if interrupts.isEmpty then pure []
  else do
    clockOutcome (clockReads board) deployment threadId record.runId settings
    let revision ← revisionOf state
    interrupts.mapM (waitingInterrupt deployment threadId record info revision)

theorem stateFound_returns {info : Description} :
    (∃ found, stateFound board deployment threadId record settings info state = .ok found) ↔
      OrderlyState board deployment threadId record.runId settings state := by
  unfold stateFound
  simp only [bind_ok]
  constructor
  · rintro ⟨found, interrupts, read, rest⟩
    cases empty : interrupts.isEmpty with
    | true =>
        have none : interrupts = [] := by simpa using empty
        have shaped : shapedState state = true := interruptsOf_shaped.mp ⟨interrupts, read, by rw [none]; rfl⟩
        have calm_ : stateWaits state = false := by simpa [empty] using interruptsOf_waits shaped read
        refine ⟨shaped, ?_, ?_⟩ <;>
        · intro waits
          rw [calm_] at waits
          cases waits
    | false =>
        rw [empty, if_neg Bool.false_ne_true] at rest
        obtain ⟨_, clock, later⟩ := bind_ok.mp rest
        obtain ⟨revision, revised, items⟩ := bind_ok.mp later
        have shaped := interruptsOf_shaped.mp ⟨interrupts, read, interrupts_return.mp ⟨found, items⟩⟩
        have dict := ((Bool.and_eq_true _ _).mp shaped).1
        exact ⟨shaped, fun _ => clockOutcome_ok.mp clock, fun _ => (revisionOf_returns dict).mp ⟨revision, revised⟩⟩
  · intro orderly
    obtain ⟨interrupts, read, all⟩ := interruptsOf_shaped.mpr orderly.shaped
    have waits := interruptsOf_waits orderly.shaped read
    cases empty : interrupts.isEmpty with
    | true => exact ⟨[], interrupts, read, by rw [if_pos empty]; rfl⟩
    | false =>
        have waiting : stateWaits state = true := by simpa [empty] using waits
        have dict := ((Bool.and_eq_true _ _).mp orderly.shaped).1
        obtain ⟨revision, revised⟩ := (revisionOf_returns dict).mpr (orderly.checkpoint waiting)
        obtain ⟨found, items⟩ := (@interrupts_return deployment threadId record info revision _).mpr all
        refine ⟨found, interrupts, read, ?_⟩
        rw [if_neg (ne_true_of_eq_false empty)]
        exact bind_ok.mpr ⟨(), clockOutcome_ok.mpr (orderly.clock waiting),
          bind_ok.mpr ⟨revision, revised, items⟩⟩

theorem passes_requested (answer : Option Json) : Passes (requested answer) := by
  intro exc failed
  cases answer with
  | some value => cases failed
  | none =>
      obtain rfl := Except.error.inj failed
      rfl

theorem requested_ok {answer : Option Json} {value : Json} : requested answer = .ok value ↔ answer = some value := by
  cases answer <;> simp [requested]

/-- The `try` block ends in a value or a `RuntimeError` when its answers have the expected shape. -/
theorem passes_probe : Passes (probe replies threadId latest) ↔
    blank threadId = false ∧ blank latest = false ∧
      (∀ run, replies.statusRun threadId latest = some run →
        shapedRun run = true ∧ (run.member "status" .null).hashable = true) ∧
      ∀ run, replies.statusRun threadId latest = some run → run.member "status" .null = .str "interrupted" →
        ∀ other, replies.run threadId latest = some other → shapedRun other = true := by
  unfold probe
  rw [passes_bind, passes_describeRun]
  constructor
  · rintro ⟨⟨thread, invocation, shaped⟩, later⟩
    have status : ∀ run, replies.statusRun threadId latest = some run → ∃ info : Description,
        info.status = run.member "status" .null ∧ Passes (runtimeStatus info.status) ∧
        ∀ value, runtimeStatus info.status = .ok value → Passes (if value = .interrupted then do
          let info ← describeRun (replies.run threadId latest) threadId latest
          let state ← requested (replies.state threadId)
          pure (some (info, state)) else pure none : Except Exc (Option (Description × Json))) := by
      intro run answered
      obtain ⟨info, described⟩ := describe_returns.mpr (shaped run answered)
      have found := (describeRun_ok thread invocation).mpr ⟨run, answered, described⟩
      exact ⟨info, describe_status described, passes_bind.mp (later info found)⟩
    refine ⟨thread, invocation, fun run answered => ⟨shaped run answered, ?_⟩, fun run answered interrupted => ?_⟩
    · obtain ⟨info, same, hashable, _⟩ := status run answered
      rw [← same]
      exact passes_runtimeStatus.mp hashable
    · obtain ⟨info, same, _, rest⟩ := status run answered
      have passes := rest .interrupted (runtimeStatus_interrupted.mpr (same.trans interrupted))
      rw [if_pos rfl] at passes
      exact (passes_describeRun.mp (passes_bind.mp passes).1).2.2
  · rintro ⟨thread, invocation, shaped, again⟩
    refine ⟨⟨thread, invocation, fun run answered => (shaped run answered).1⟩, fun info found => ?_⟩
    obtain ⟨run, answered, described⟩ := (describeRun_ok thread invocation).mp found
    have same := describe_status described
    rw [passes_bind, passes_runtimeStatus, same]
    refine ⟨(shaped run answered).2, fun value read => ?_⟩
    split
    · rename_i interrupted
      rw [interrupted] at read
      rw [passes_bind, passes_describeRun]
      refine ⟨⟨thread, invocation, again run answered (runtimeStatus_interrupted.mp read)⟩, fun other _ => ?_⟩
      rw [passes_bind]
      exact ⟨passes_requested _, fun state _ => passes_ok _⟩
    · exact passes_ok _

theorem probe_found (thread : blank threadId = false) (invocation : blank latest = false) {info : Description} :
    probe replies threadId latest = .ok (some (info, state)) ↔
      ∃ run other, replies.statusRun threadId latest = some run ∧ shapedRun run = true ∧
        run.member "status" .null = .str "interrupted" ∧ replies.run threadId latest = some other ∧
        describe other = .ok info ∧ replies.state threadId = some state := by
  unfold probe
  simp only [bind_ok, describeRun_ok thread invocation]
  constructor
  · rintro ⟨first, ⟨run, answered, described⟩, status, read, rest⟩
    split at rest
    · rename_i interrupted
      obtain ⟨second, found, later⟩ := bind_ok.mp rest
      obtain ⟨value, stored, same⟩ := bind_ok.mp later
      obtain ⟨rfl, rfl⟩ := Prod.mk.inj (Option.some.inj (Except.ok.inj same))
      obtain ⟨other, replied, again⟩ := (describeRun_ok thread invocation).mp found
      rw [interrupted, runtimeStatus_interrupted, describe_status described] at read
      exact ⟨run, other, answered, describe_returns.mp ⟨first, described⟩, read, replied, again,
        requested_ok.mp stored⟩
    · cases rest
  · rintro ⟨run, other, answered, shaped, interrupted, replied, described, stored⟩
    obtain ⟨first, one⟩ := describe_returns.mpr shaped
    refine ⟨first, ⟨run, answered, one⟩, .interrupted, ?_, ?_⟩
    · rw [describe_status one]
      exact runtimeStatus_interrupted.mpr interrupted
    · rw [if_pos rfl]
      exact bind_ok.mpr ⟨info, (describeRun_ok thread invocation).mpr ⟨other, replied, described⟩,
        bind_ok.mpr ⟨state, requested_ok.mpr stored, rfl⟩⟩

/-- A Thread is reported or skipped when its `try` block passes and the state that it reads can be reported. -/
theorem threadFound_iff (last : record.apiRunIds.getLast? = some latest) :
    (∃ found, threadFound (clockReads board) deployment settings replies threadId record = .ok found) ↔
      Passes (probe replies threadId latest) ∧ ∀ info state, probe replies threadId latest = .ok (some (info, state)) →
        ∃ found, stateFound board deployment threadId record settings info state = .ok found := by
  unfold threadFound
  rw [last]
  dsimp only
  cases probed : probe replies threadId latest with
  | error exc =>
      dsimp only
      constructor
      · rintro ⟨found, same⟩
        split at same
        · rename_i runtime
          refine ⟨fun other failed => ?_, fun info state read => ?_⟩
          · obtain rfl := Except.error.inj failed
            exact runtime
          · cases read
        · cases same
      · rintro ⟨passes, _⟩
        rw [if_pos (passes exc rfl)]
        exact ⟨[], rfl⟩
  | ok found =>
      cases found with
      | none =>
          refine ⟨fun _ => ⟨passes_ok _, fun info state read => ?_⟩, fun _ => ⟨[], rfl⟩⟩
          cases Except.ok.inj read
      | some pair =>
          constructor
          · intro returned
            refine ⟨passes_ok _, fun info state read => ?_⟩
            obtain rfl := Option.some.inj (Except.ok.inj read)
            exact returned
          · exact fun both => both.2 pair.1 pair.2 rfl

theorem threadFound_returns :
    (∃ found, threadFound (clockReads board) deployment settings replies threadId record = .ok found) ↔
      OrderlyThread board deployment threadId record settings replies := by
  unfold OrderlyThread
  cases last : record.apiRunIds.getLast? with
  | none => simp [threadFound, last]
  | some latest =>
      rw [threadFound_iff last, passes_probe]
      simp only [stateFound_returns, Option.some.injEq, exists_eq_left']
      constructor
      · rintro ⟨⟨thread, invocation, shaped, again⟩, later⟩
        refine ⟨thread, invocation, shaped, again, fun run answered interrupted other replied state stored => ?_⟩
        obtain ⟨info, described⟩ := describe_returns.mpr (again run answered interrupted other replied)
        exact later info state ((probe_found thread invocation).mpr
          ⟨run, other, answered, (shaped run answered).1, interrupted, replied, described, stored⟩)
      · intro orderly
        refine ⟨⟨orderly.thread, orderly.invocation, orderly.shaped, orderly.again⟩, fun info state found => ?_⟩
        obtain ⟨run, other, answered, _, interrupted, replied, _, stored⟩ :=
          (probe_found orderly.thread orderly.invocation).mp found
        exact orderly.state run answered interrupted other replied state stored

theorem threadFound_named {reads : Except Exc Unit} {found : List WaitingInterrupt}
    (read : threadFound reads deployment settings replies threadId record = .ok found) :
    ∀ item ∈ found, item.deployment = deployment := by
  unfold threadFound at read
  split at read
  · cases read
  · split at read
    · split at read
      · obtain rfl := Except.ok.inj read
        simp
      · cases read
    · obtain rfl := Except.ok.inj read
      simp
    · obtain ⟨interrupts, _, rest⟩ := bind_ok.mp read
      split at rest
      · obtain rfl := Except.ok.inj rest
        simp
      · obtain ⟨_, _, later⟩ := bind_ok.mp rest
        obtain ⟨revision, _, items⟩ := bind_ok.mp later
        exact interrupts_named items

end

section
variable {reads : Except Exc Unit} {deployment : String} {settings : Waiting} {replies : String → Replies}

theorem threadsFound_returns {board : Board} {answers : Replies} {threads : List (String × LogicalRun)} :
    (∃ found, threadsFound (clockReads board) deployment settings answers threads = .ok found) ↔
      ∀ item ∈ threads, OrderlyThread board deployment item.1 item.2 settings answers := by
  induction threads with
  | nil => simp [threadsFound]
  | cons item rest ih =>
      rw [List.forall_mem_cons, ← ih, ← threadFound_returns]
      simp only [threadsFound, bind_ok]
      constructor
      · rintro ⟨_, first, one, others, two, _⟩
        exact ⟨⟨first, one⟩, others, two⟩
      · rintro ⟨⟨first, one⟩, others, two⟩
        exact ⟨_, first, one, others, two, rfl⟩

theorem threadsFound_named {answers : Replies} {threads : List (String × LogicalRun)} {found : List WaitingInterrupt}
    (read : threadsFound reads deployment settings answers threads = .ok found) :
    ∀ item ∈ found, item.deployment = deployment := by
  induction threads generalizing found with
  | nil =>
      obtain rfl := Except.ok.inj read
      simp
  | cons thread rest ih =>
      obtain ⟨first, one, later⟩ := bind_ok.mp read
      obtain ⟨others, two, same⟩ := bind_ok.mp later
      obtain rfl := Except.ok.inj same
      intro item member
      rcases List.mem_append.mp member with member | member
      · exact threadFound_named one item member
      · exact ih two item member

theorem deploymentsFound_returns {board : Board} {registered : String → Bool}
    {continuity : List (String × Dict String LogicalRun)} :
    (∃ found, deploymentsFound (clockReads board) registered settings replies continuity = .ok found) ↔
      ∀ item ∈ continuity, registered item.1 = true → ∀ thread ∈ item.2.items,
        OrderlyThread board item.1 thread.1 thread.2 settings (replies item.1) := by
  induction continuity with
  | nil => simp [deploymentsFound]
  | cons item rest ih =>
      rw [List.forall_mem_cons, ← ih, ← threadsFound_returns]
      simp only [deploymentsFound, bind_ok]
      cases registered item.1 with
      | true =>
          constructor
          · rintro ⟨_, first, one, others, two, _⟩
            exact ⟨fun _ => ⟨first, one⟩, others, two⟩
          · rintro ⟨first, others, two⟩
            obtain ⟨first, one⟩ := first rfl
            exact ⟨_, first, one, others, two, rfl⟩
      | false =>
          constructor
          · rintro ⟨_, first, one, others, two, _⟩
            refine ⟨fun never => ?_, others, two⟩
            cases never
          · rintro ⟨_, others, two⟩
            exact ⟨_, [], rfl, others, two, rfl⟩

/-- The interrupts that a report lists for one Thread. -/
def reported (waiting : List WaitingInterrupt) (deployment threadId : String) : List WaitingInterrupt :=
  waiting.filter fun item => item.deployment = deployment && item.threadId = threadId

/-- A report without one Deployment lists the same interrupts for the other ones. -/
theorem deploymentsFound_apart {registered fewer : String → Bool} (gone : fewer deployment = false)
    (same : ∀ other, other ≠ deployment → fewer other = registered other)
    {continuity : List (String × Dict String LogicalRun)} {waiting : List WaitingInterrupt}
    (read : deploymentsFound reads registered settings replies continuity = .ok waiting) :
    ∃ others, deploymentsFound reads fewer settings replies continuity = .ok others ∧
      ∀ other threadId, other ≠ deployment → reported waiting other threadId = reported others other threadId := by
  induction continuity generalizing waiting with
  | nil =>
      obtain rfl := Except.ok.inj read
      exact ⟨[], rfl, fun _ _ _ => rfl⟩
  | cons item rest ih =>
      obtain ⟨first, one, later⟩ := bind_ok.mp read
      obtain ⟨remaining, two, equal⟩ := bind_ok.mp later
      obtain rfl := Except.ok.inj equal
      obtain ⟨others, found, apart⟩ := ih two
      by_cases target : item.1 = deployment
      · refine ⟨others, ?_, fun other threadId different => ?_⟩
        · have skipped : (if fewer item.1 = true then
              threadsFound reads item.1 settings (replies item.1) item.2.items else .ok []) = .ok [] := by
            rw [target, gone, if_neg Bool.false_ne_true]
          exact bind_ok.mpr ⟨[], skipped, bind_ok.mpr ⟨others, found, rfl⟩⟩
        · have none : reported first other threadId = [] := by
            apply List.filter_eq_nil_iff.mpr
            intro entry member
            split at one
            · have owner := threadsFound_named one entry member
              simp [owner, target, Ne.symm different]
            · obtain rfl := Except.ok.inj one
              cases member
          rw [← apart other threadId different]
          change List.filter _ (first ++ remaining) = _
          rw [List.filter_append]
          change reported first other threadId ++ _ = _
          rw [none]
          rfl
      · refine ⟨first ++ others, ?_, fun other threadId different => ?_⟩
        · rw [← same item.1 target] at one
          exact bind_ok.mpr ⟨first, one, bind_ok.mpr ⟨others, found, rfl⟩⟩
        · have rest_ := apart other threadId different
          unfold reported at rest_ ⊢
          rw [List.filter_append, List.filter_append, rest_]

end

/-- The Deployment has no connection on this board. -/
def unregister (board : Board) (deployment : String) : Board :=
  match board .connections with
  | .content data => board.put .connections (Dict.erase data deployment)
  | _ => board

/-- The Deployment and the Thread that the scan visits. -/
def Scanned (board : Board) (deployment threadId : String) (record : LogicalRun) : Prop :=
  ∃ connections continuity threads, decode .connections (board .connections) = .ok connections ∧
    decode .continuity (board .continuity) = .ok continuity ∧
    (Dict.get? connections deployment).isSome = true ∧ (deployment, threads) ∈ Dict.items continuity ∧
    (threadId, record) ∈ Dict.items threads

/-- The files of the scan can be read, and each scanned Thread has orderly answers. -/
structure Orderly (board : Board) (settings : Waiting) (replies : String → Replies) : Prop where
  connections : ∃ data, decode .connections (board .connections) = .ok data
  continuity : ∃ data, decode .continuity (board .continuity) = .ok data
  threads : ∀ deployment threadId record, Scanned board deployment threadId record →
    OrderlyThread board deployment threadId record settings (replies deployment)

/-- The scan returns, and it reports for the other Deployments what it reports without this one. -/
structure Isolates (board : Board) (settings : Waiting) (replies : String → Replies) (deployment : String) : Prop where
  returns : ∀ trace outcome after,
    Runs boardMachine (discoverWaiting settings replies).toProgram board trace outcome after →
      ∃ waiting, outcome = .ok waiting
  apart : ∀ trace waiting after trace' outcome after',
    Runs boardMachine (discoverWaiting settings replies).toProgram board trace (.ok waiting) after →
    Runs boardMachine (discoverWaiting settings replies).toProgram (unregister board deployment) trace' outcome after' →
      ∃ others, outcome = .ok others ∧ ∀ other threadId, other ≠ deployment →
        reported waiting other threadId = reported others other threadId

section
variable {board : Board} {settings : Waiting} {replies : String → Replies} {deployment : String}

theorem waitingFound_returns :
    (∃ waiting, waitingFound board settings replies = .ok waiting) ↔ Orderly board settings replies := by
  unfold waitingFound
  simp only [bind_ok]
  constructor
  · rintro ⟨waiting, connections, decoded, continuity, read, found⟩
    have orderly := deploymentsFound_returns.mp ⟨waiting, found⟩
    refine ⟨⟨connections, decoded⟩, ⟨continuity, read⟩, ?_⟩
    rintro deployment threadId record ⟨connections', continuity', threads, decoded', read', registered, one, two⟩
    obtain rfl := Except.ok.inj (decoded.symm.trans decoded')
    obtain rfl := Except.ok.inj (read.symm.trans read')
    exact orderly (deployment, threads) one registered (threadId, record) two
  · rintro ⟨⟨connections, decoded⟩, ⟨continuity, read⟩, threads⟩
    have returns := (@deploymentsFound_returns settings replies board
      (fun deployment => (Dict.get? connections deployment).isSome) (Dict.items continuity)).mpr fun item one registered
        thread two => threads item.1 thread.1 thread.2
          ⟨connections, continuity, item.2, decoded, read, registered, one, two⟩
    obtain ⟨waiting, found⟩ := returns
    exact ⟨waiting, connections, decoded, continuity, read, found⟩

theorem unregister_of_ne (board : Board) (deployment : String) {store : Store} (other : store ≠ .connections) :
    unregister board deployment store = board store := by
  unfold unregister
  cases board .connections with
  | content data => exact Board.put_of_ne board other _
  | _ => rfl

theorem unregister_connections {connections : Dict String Connection}
    (decoded : decode .connections (board .connections) = .ok connections) :
    ∃ fewer, decode .connections (unregister board deployment .connections) = .ok fewer ∧
      Dict.get? fewer deployment = none ∧ ∀ other, other ≠ deployment → Dict.get? fewer other = connections.get? other := by
  rcases (decode_eq_ok_iff _ _ _).mp decoded with ⟨missing, rfl⟩ | content
  · have same : unregister board deployment = board := by
      unfold unregister
      rw [missing]
    rw [same]
    exact ⟨_, decoded, rfl, fun _ _ => rfl⟩
  · refine ⟨connections.erase deployment, ?_, Dict.get?_erase_self _ _, fun other different => ?_⟩
    · unfold unregister
      rw [content]
      dsimp only
      rw [Board.put_self]
      rfl
    · exact Dict.get?_erase_of_ne _ different

theorem waitingFound_apart {waiting : List WaitingInterrupt}
    (found : waitingFound board settings replies = .ok waiting) :
    ∃ others, waitingFound (unregister board deployment) settings replies = .ok others ∧
      ∀ other threadId, other ≠ deployment → reported waiting other threadId = reported others other threadId := by
  obtain ⟨connections, decoded, rest⟩ := bind_ok.mp found
  obtain ⟨continuity, read, scanned⟩ := bind_ok.mp rest
  obtain ⟨fewer, erased, gone, kept⟩ := @unregister_connections board deployment connections decoded
  have clock : clockReads (unregister board deployment) = clockReads board := by
    rw [clockReads, unregister_of_ne board deployment (by decide)]
    rfl
  have threads : unregister board deployment .continuity = board .continuity :=
    unregister_of_ne board deployment (by decide)
  obtain ⟨others, done, apart⟩ := @deploymentsFound_apart _ deployment settings replies _
    (fun other => (Dict.get? fewer other).isSome) (by rw [gone]; rfl)
    (fun other different => by rw [kept other different]) _ _ scanned
  refine ⟨others, ?_, apart⟩
  rw [waitingFound, threads, clock]
  exact bind_ok.mpr ⟨fewer, erased, bind_ok.mpr ⟨continuity, read, done⟩⟩

end

/-- Discovery isolates a Deployment exactly when each scanned Thread has orderly answers. -/
theorem discovery_isolated (board : Board) (settings : Waiting) (replies : String → Replies) (deployment : String) :
    Isolates board settings replies deployment ↔ Orderly board settings replies := by
  have outcome_of (start : Board) {trace outcome after}
      (run : Runs boardMachine (discoverWaiting settings replies).toProgram start trace outcome after) :
      outcome = waitingFound start settings replies :=
    Fallible.wp_runs (discoverWaiting_settles start settings replies) run
  rw [← waitingFound_returns]
  constructor
  · intro isolates
    have run := calm.exec_runs (discoverWaiting settings replies) board
    obtain ⟨waiting, done⟩ := isolates.returns _ _ _ run
    exact ⟨waiting, (outcome_of board run).symm.trans done⟩
  · rintro ⟨waiting, found⟩
    obtain ⟨others, without, apart⟩ := @waitingFound_apart board settings replies deployment waiting found
    constructor
    · intro trace outcome after run
      exact ⟨waiting, (outcome_of board run).trans found⟩
    · intro trace listed after trace' outcome after' run second
      obtain rfl := Except.ok.inj ((outcome_of board run).trans found)
      exact ⟨others, (outcome_of _ second).trans without, apart⟩

section Example

/-- Two Deployments have one Thread each. -/
def twoDeployments : Board
  | .connections => .content ⟨[("broken", ⟨"http://a", [], none⟩), ("sound", ⟨"http://b", [], none⟩)], by decide⟩
  | .continuity => .content ⟨[("broken", ⟨[("thread-1", ⟨"run-1", ["run-1"]⟩)], by decide⟩),
      ("sound", ⟨[("thread-2", ⟨"run-2", ["run-2"]⟩)], by decide⟩)], by decide⟩
  | _ => .missing

/-- The service of the first Deployment answers with an array, and a Run of the other one waits. -/
def malformedReplies : String → Replies := fun deployment =>
  if deployment = "broken" then ⟨fun _ _ => some (.arr []), fun _ _ => some (.arr []), fun _ => some (.arr [])⟩
  else
    let run := Json.obj [("assistant_id", .str "graph"), ("status", .str "interrupted")]
    ⟨fun _ _ => some run, fun _ _ => some run, fun _ => some (.obj [("tasks", .arr [.obj [("interrupts",
      .arr [.obj [("id", .str "interrupt-1"), ("value", .str "approve?")]])]])])⟩

def sampleWaiting : Waiting := ⟨60, 120, 0⟩

/-- One malformed Run hides the interrupt of the other Deployment. -/
theorem malformed_run_hides :
    (∀ trace outcome after,
      Runs boardMachine (discoverWaiting sampleWaiting malformedReplies).toProgram twoDeployments trace outcome after →
        outcome = .error ⟨.attribute, "object has no attribute 'get'"⟩) ∧
    (∀ trace outcome after,
      Runs boardMachine (discoverWaiting sampleWaiting malformedReplies).toProgram (unregister twoDeployments "broken")
        trace outcome after → ∃ others, outcome = .ok others ∧ (reported others "sound" "thread-2").length = 1) ∧
    ¬ Isolates twoDeployments sampleWaiting malformedReplies "broken" := by
  have raises : waitingFound twoDeployments sampleWaiting malformedReplies =
      .error ⟨.attribute, "object has no attribute 'get'"⟩ := rfl
  have escapes : ∀ trace outcome after,
      Runs boardMachine (discoverWaiting sampleWaiting malformedReplies).toProgram twoDeployments trace outcome after →
        outcome = .error ⟨.attribute, "object has no attribute 'get'"⟩ := by
    intro trace outcome after run
    exact (Fallible.wp_runs (discoverWaiting_settles _ _ _) run).trans raises
  refine ⟨escapes, ?_, ?_⟩
  · intro trace outcome after run
    exact ⟨_, Fallible.wp_runs (discoverWaiting_settles _ _ _) run, rfl⟩
  · intro isolates
    have run := calm.exec_runs (discoverWaiting sampleWaiting malformedReplies) twoDeployments
    obtain ⟨waiting, done⟩ := isolates.returns _ _ _ run
    rw [escapes _ _ _ run] at done
    cases done

end Example

end ApprovalInbox

end Cordboard
