import Cordboard.Construction.Discovery
import Cordboard.Proof.Records

namespace Cordboard
open Data Effects

namespace ApprovalInbox
open AegraClient

/-- Whether the clock file can be read. -/
def clockReads (board : Board) : Except Exc Unit := (decode .expiry (board .expiry)).map fun _ => ()

/-- Every run of the program has this outcome, and the clock file stays readable or unreadable. -/
def Settles {A : Type} (reads : Except Exc Unit) (program : Py A) (outcome : Except Exc A) : Prop :=
  ∀ board, clockReads board = reads →
    Fallible.wp boardMachine program (fun _ result after => result = outcome ∧ clockReads after = reads) board

section
variable {A B : Type} {reads : Except Exc Unit}

theorem settles_ofExcept (outcome : Except Exc A) : Settles reads (Fallible.ofExcept outcome) outcome := by
  intro board same
  rw [Fallible.wp_ofExcept]
  exact ⟨rfl, same⟩

theorem settles_pure (value : A) : Settles reads (pure value : Py A) (.ok value) := fun _ same => ⟨rfl, same⟩

theorem settles_raise (exc : Exc) : Settles reads (Fallible.raise exc : Py A) (.error exc) := fun _ same => ⟨rfl, same⟩

theorem Settles.bind {program : Py A} {outcome : Except Exc A} {rest : A → Py B} {next : A → Except Exc B}
    (first : Settles reads program outcome) (later : ∀ value, Settles reads (rest value) (next value)) :
    Settles reads (program >>= rest) (outcome >>= next) := by
  intro board same
  apply Fallible.wp_seq (first board same)
  · rintro before value reached ⟨rfl, kept⟩
    exact later value reached kept
  · rintro before exc reached ⟨rfl, kept⟩
    exact ⟨rfl, kept⟩

/-- A wait can be recorded under these texts and settings. -/
def clockOutcome (reads : Except Exc Unit) (deployment threadId runId : String) (settings : Waiting) : Except Exc Unit := do
  checkTexts .approvalExpiry [("deployment alias", deployment), ("thread ID", threadId), ("run ID", runId)]
  if settings.timeoutAfter < settings.reminderAfter then
    .error ⟨.approvalExpiry, "timeout_after must not be shorter than reminder_after"⟩
  else reads

theorem recordWaiting_settles (deployment threadId runId : String) (settings : Waiting) {rest : Py B}
    {next : Except Exc B} (later : Settles reads rest next) :
    Settles reads (do
        let _ ← ApprovalExpiry.recordWaiting deployment threadId runId settings.now settings.reminderAfter
          settings.timeoutAfter
        rest)
      (do
        clockOutcome reads deployment threadId runId settings
        next) := by
  intro board same
  apply @Fallible.wp_seq _ _ _ _ _ _ (fun _ outcome after =>
    (outcome.map fun _ => ()) = clockOutcome reads deployment threadId runId settings ∧ clockReads after = reads)
  · apply wp_checkedTexts
    · intro checked
      have passed : clockOutcome reads deployment threadId runId settings =
          if settings.timeoutAfter < settings.reminderAfter then
            .error ⟨.approvalExpiry, "timeout_after must not be shorter than reminder_after"⟩ else reads := by
        rw [clockOutcome, checked]
        rfl
      rw [passed]
      split
      · exact ⟨rfl, same⟩
      · apply wp_loaded .expiry
        · intro _ data decoded
          have readable : reads = .ok () := by rw [← same, clockReads, decoded]; rfl
          dsimp only
          cases stored : ((data.get? deployment).getD Dict.empty).get? threadId with
          | some record => exact ⟨readable.symm, same⟩
          | none =>
              simp only []
              rw [Fallible.wp_bind, wp_writeAtomic]
              refine ⟨trivial, ?_⟩
              rintro _ rfl
              refine ⟨readable.symm, ?_⟩
              rw [clockReads, Board.put_self, readable]
              rfl
        · intro _ exc failed
          refine ⟨?_, same⟩
          rw [← same, clockReads, failed]
          rfl
    · intro exc failed
      rw [clockOutcome, failed]
      exact ⟨rfl, same⟩
  · rintro before value reached ⟨done, kept⟩
    rw [← done]
    exact later reached kept
  · rintro before exc reached ⟨done, kept⟩
    rw [← done]
    exact ⟨rfl, kept⟩

/-- The outcome of one Thread, from the answers of its service. -/
def threadFound (reads : Except Exc Unit) (deployment : String) (settings : Waiting) (replies : Replies)
    (threadId : String) (record : LogicalRun) : Except Exc (List WaitingInterrupt) :=
  match record.apiRunIds.getLast? with
  | none => .error ⟨.index, "list index out of range"⟩
  | some latest =>
      match probe replies threadId latest with
      | .error exc => if exc.isRuntimeError then .ok [] else .error exc
      | .ok none => .ok []
      | .ok (some (info, state)) => do
          let interrupts ← interruptsOf state
          if interrupts.isEmpty then pure []
          else do
            clockOutcome reads deployment threadId record.runId settings
            let revision ← revisionOf state
            interrupts.mapM (waitingInterrupt deployment threadId record info revision)

theorem discoverThread_settles (deployment : String) (settings : Waiting) (replies : Replies) (threadId : String)
    (record : LogicalRun) : Settles reads (discoverThread deployment threadId record settings replies)
      (threadFound reads deployment settings replies threadId record) := by
  unfold discoverThread threadFound
  cases record.apiRunIds.getLast? with
  | none => exact settles_raise _
  | some latest =>
      dsimp only
      cases probe replies threadId latest with
      | error exc =>
          dsimp only
          split
          · exact settles_pure _
          · exact settles_raise _
      | ok found =>
          cases found with
          | none => exact settles_pure _
          | some found =>
              apply (settles_ofExcept _).bind
              intro interrupts
              split
              · exact settles_pure _
              · exact recordWaiting_settles _ _ _ _ (settles_ofExcept _)

/-- The outcome of the Threads of one Deployment. -/
def threadsFound (reads : Except Exc Unit) (deployment : String) (settings : Waiting) (replies : Replies) :
    List (String × LogicalRun) → Except Exc (List WaitingInterrupt)
  | [] => .ok []
  | (threadId, record) :: rest => do
      let found ← threadFound reads deployment settings replies threadId record
      let others ← threadsFound reads deployment settings replies rest
      .ok (found ++ others)

theorem discoverThreads_settles (deployment : String) (settings : Waiting) (replies : Replies)
    (threads : List (String × LogicalRun)) : Settles reads (discoverThreads deployment settings replies threads)
      (threadsFound reads deployment settings replies threads) := by
  induction threads with
  | nil => exact settles_pure _
  | cons item rest ih =>
      apply (discoverThread_settles deployment settings replies item.1 item.2).bind
      intro found
      apply ih.bind
      intro others
      exact settles_pure _

/-- The outcome of the Deployments that have a connection. -/
def deploymentsFound (reads : Except Exc Unit) (registered : String → Bool) (settings : Waiting)
    (replies : String → Replies) : List (String × Dict String LogicalRun) → Except Exc (List WaitingInterrupt)
  | [] => .ok []
  | (deployment, threads) :: rest => do
      let found ← (if registered deployment then
        threadsFound reads deployment settings (replies deployment) threads.items else .ok [])
      let others ← deploymentsFound reads registered settings replies rest
      .ok (found ++ others)

theorem discoverDeployments_settles (connections : Dict String Connection) (settings : Waiting)
    (replies : String → Replies) (continuity : List (String × Dict String LogicalRun)) :
    Settles reads (discoverDeployments connections settings replies continuity)
      (deploymentsFound reads (fun deployment => (connections.get? deployment).isSome) settings replies continuity) := by
  induction continuity with
  | nil => exact settles_pure _
  | cons item rest ih =>
      have first : Settles reads (if (connections.get? item.1).isSome then
            discoverThreads item.1 settings (replies item.1) item.2.items else pure [])
          (if (connections.get? item.1).isSome then
            threadsFound reads item.1 settings (replies item.1) item.2.items else .ok []) := by
        split
        · exact discoverThreads_settles _ _ _ _
        · exact settles_pure _
      apply first.bind
      intro found
      apply ih.bind
      intro others
      exact settles_pure _

/-- The outcome of the whole scan. -/
def waitingFound (board : Board) (settings : Waiting) (replies : String → Replies) :
    Except Exc (List WaitingInterrupt) := do
  let connections ← decode .connections (board .connections)
  let continuity ← decode .continuity (board .continuity)
  deploymentsFound (clockReads board) (fun deployment => (Dict.get? connections deployment).isSome) settings replies
    (Dict.items continuity)

/-- Every run of the scan has the outcome that the board and the answers decide. -/
theorem discoverWaiting_settles (board : Board) (settings : Waiting) (replies : String → Replies) :
    Fallible.wp boardMachine (discoverWaiting settings replies)
      (fun _ outcome _ => outcome = waitingFound board settings replies) board := by
  apply wp_loaded .connections
  · intro _ connections decoded
    apply wp_loaded .continuity
    · intro _ continuity read
      have found := discoverDeployments_settles connections settings replies continuity.items board rfl
      apply Fallible.wp_mono found
      rintro trace outcome after ⟨rfl, _⟩
      rw [waitingFound, decoded, read]
      rfl
    · intro _ exc failed
      rw [waitingFound, decoded, failed]
      rfl
  · intro _ exc failed
    rw [waitingFound, failed]
    rfl

end

end ApprovalInbox

end Cordboard
