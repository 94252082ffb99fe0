import Cordboard.Construction.Storage

namespace Cordboard
open Data Effects

namespace PendingCompletions

def loadPending : Py (Dict (String × String) PendingEntry) := load .pending

def key (deployment threadId : String) : Py (String × String) := do
  requireTexts .pendingCompletion [("deployment alias", deployment), ("thread ID", threadId)]
  pure (deployment, threadId)

/-- This call starts or overwrites the record of the outstanding invocation of one Thread. -/
def recordPending (deployment threadId invocationId assistant subject : String) (cascadeDepth : Nat)
    (concurrencyHeld deploymentHeld : Bool) (now : Time) : Py Unit := do
  requireTexts .pendingCompletion
    [("deployment alias", deployment), ("thread ID", threadId), ("invocation ID", invocationId),
      ("assistant", assistant), ("subject", subject)]
  let data ← loadPending
  let key ← key deployment threadId
  let record : PendingEntry :=
    ⟨deployment, threadId, invocationId, assistant, subject, cascadeDepth, concurrencyHeld, deploymentHeld, now⟩
  note (.pendingChanged deployment threadId (.recorded (data.get? key) record))
  writeAtomic .pending (data.set key record)
  note (.pendingReturned deployment threadId)

/-- An update changes only the fields that the caller passes. -/
def updateEntry (record : PendingEntry) (invocationId : Option String)
    (concurrencyHeld deploymentHeld : Option Bool) (now : Time) : PendingEntry :=
  { record with
    invocationId := invocationId.getD record.invocationId
    concurrencyHeld := concurrencyHeld.getD record.concurrencyHeld
    deploymentHeld := deploymentHeld.getD record.deploymentHeld
    recordedAt := now }

def updatePending (deployment threadId : String) (invocationId : Option String)
    (concurrencyHeld deploymentHeld : Option Bool) (now : Time) : Py (Option PendingEntry) := do
  let data ← loadPending
  let key ← key deployment threadId
  match data.get? key with
  | none => pure none
  | some record =>
      let updated := updateEntry record invocationId concurrencyHeld deploymentHeld now
      note (.pendingChanged deployment threadId (.updated record updated))
      writeAtomic .pending (data.set key updated)
      pure (some updated)

def getPending (deployment threadId : String) : Py (Option PendingEntry) := do
  let data ← loadPending
  let key ← key deployment threadId
  pure (data.get? key)

/-- This call removes the record once each claim it held is released. -/
def resolvePending (deployment threadId : String) : Py (Option PendingEntry) := do
  let data ← loadPending
  let key ← key deployment threadId
  match data.get? key with
  | none => pure none
  | some record =>
      note (.pendingChanged deployment threadId (.resolved record))
      writeAtomic .pending (data.erase key)
      pure (some record)

end PendingCompletions

namespace RunContinuity

def loadRunContinuity : Py (Dict String (Dict String LogicalRun)) := load .continuity

/-- The first API Run ID of a Thread becomes its logical Run ID, and each later one joins it. -/
def recordSubmission (deployment threadId apiRunId : String) : Py String := do
  requireTexts .runContinuity
    [("deployment alias", deployment), ("thread ID", threadId), ("API Run ID", apiRunId)]
  let data ← loadRunContinuity
  let threads := (data.get? deployment).getD Dict.empty
  match threads.get? threadId with
  | none =>
      writeAtomic .continuity (data.set deployment (threads.set threadId ⟨apiRunId, [apiRunId]⟩))
      pure apiRunId
  | some record =>
      if apiRunId ∈ record.apiRunIds then
        pure record.runId
      else
        let extended : LogicalRun := { record with apiRunIds := record.apiRunIds ++ [apiRunId] }
        writeAtomic .continuity (data.set deployment (threads.set threadId extended))
        pure record.runId

def logicalRun (deployment threadId : String) : Py LogicalRun := do
  let data ← loadRunContinuity
  match (data.get? deployment).bind fun threads => threads.get? threadId with
  | some record => pure record
  | none => raise .unknownThread ("no recorded submission for " ++ deployment ++ "/" ++ threadId)

/-- The first Thread in file order whose logical Run has this identifier. -/
def threadForRun (deployment runId : String) : Py (Option String) := do
  let data ← loadRunContinuity
  let threads := (data.get? deployment).getD Dict.empty
  pure ((threads.items.find? fun item => item.2.runId = runId).map Prod.fst)

end RunContinuity

namespace ApprovalExpiry

def loadApprovalExpiry : Py (Dict String (Dict String ExpiryRecord)) := load .expiry

/-- This call starts the clock of a wait, or returns the clock that the pair already has. -/
def recordWaiting (deployment threadId runId : String) (now reminderAfter timeoutAfter : Time) : Py ExpiryRecord := do
  requireTexts .approvalExpiry [("deployment alias", deployment), ("thread ID", threadId), ("run ID", runId)]
  if timeoutAfter < reminderAfter then
    raise .approvalExpiry "timeout_after must not be shorter than reminder_after"
  else
    let data ← loadApprovalExpiry
    let threads := (data.get? deployment).getD Dict.empty
    match threads.get? threadId with
    | some record => pure record
    | none =>
        let record : ExpiryRecord := ⟨runId, now, now + reminderAfter, now + timeoutAfter, false, none, none, none⟩
        writeAtomic .expiry (data.set deployment (threads.set threadId record))
        pure record

/-- The stored record of a wait, with the data that it came from. -/
def require (deployment threadId : String) : Py (Dict String (Dict String ExpiryRecord) × ExpiryRecord) := do
  let data ← loadApprovalExpiry
  match ((data.get? deployment).getD Dict.empty).get? threadId with
  | none =>
      raise .unknownWaitingApproval ("no waiting approval recorded for " ++ deployment ++ "/" ++ threadId)
  | some record => pure (data, record)

inductive WaitStatus where
  | waiting
  | reminderDue
  | timeoutDue
  | resolved
deriving DecidableEq

/-- The status of a record at a time. -/
def statusOf (record : ExpiryRecord) (now : Time) : WaitStatus :=
  if record.disposition.isSome then .resolved
  else if record.timeoutAt ≤ now then .timeoutDue
  else if record.reminderAt ≤ now then .reminderDue
  else .waiting

def evaluate (deployment threadId : String) (now : Time) : Py WaitStatus := do
  let (_, record) ← require deployment threadId
  pure (statusOf record now)

/-- The reminder is recorded once, and not after a disposition. -/
def markReminded (deployment threadId : String) (now : Time) : Py ExpiryRecord := do
  let (data, record) ← require deployment threadId
  if !record.reminded ∧ record.disposition.isNone then
    let reminded : ExpiryRecord := { record with reminded := true, remindedAt := some now }
    writeAtomic .expiry (data.set deployment (((data.get? deployment).getD Dict.empty).set threadId reminded))
    pure reminded
  else
    pure record

/-- The first disposition of a wait stays. -/
def dispose (deployment threadId : String) (disposition : Disposition) (now : Time) : Py ExpiryRecord := do
  let data ← loadApprovalExpiry
  let threads := (data.get? deployment).getD Dict.empty
  match threads.get? threadId with
  | none =>
      raise .unknownWaitingApproval ("no waiting approval recorded for " ++ deployment ++ "/" ++ threadId)
  | some record =>
      if record.disposition.isNone then
        let resolved : ExpiryRecord := { record with disposition := some disposition, resolvedAt := some now }
        writeAtomic .expiry (data.set deployment (threads.set threadId resolved))
        pure resolved
      else
        pure record

def resolveApproved (deployment threadId : String) (now : Time) : Py ExpiryRecord :=
  dispose deployment threadId .resumed now

/-- The halt action runs before its disposition is stored, and only without a disposition. -/
def resolveTimedOut (deployment threadId : String) (now : Time) : Py ExpiryRecord := do
  let (_, record) ← require deployment threadId
  if record.disposition.isSome then
    pure record
  else
    let halted ← call (.halt deployment threadId)
    Fallible.ofExcept halted
    dispose deployment threadId .halted now

end ApprovalExpiry

end Cordboard
