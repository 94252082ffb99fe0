import Cordboard.Construction.ApprovalInbox

namespace Cordboard
open Data Effects

/-- This is `value.get(name, default)`. -/
def Json.getOr (value : Json) (name : String) (default_ : Json) : Except Exc Json :=
  match value with
  | .obj members => .ok ((members.lookup name).getD default_)
  | _ => .error ⟨.attribute, "object has no attribute 'get'"⟩

namespace AegraClient

/-- A request that fails has no answer. The client raises the same error for every failure. -/
def requested : Option Json → Except Exc Json
  | some answer => .ok answer
  | none => .error ⟨.runtime, "Aegra API request failed; check service readiness and input contract"⟩

/-- The description of one Run has the values that the service sent. -/
structure Description where
  assistantId : Json
  status : Json
  subject : Json

/-- The fields that `describe_run` reads from the answer. -/
def describe (run : Json) : Except Exc Description := do
  let stored ← run.getField "config"
  let configurable ← (stored.orElse (.obj [])).getOr "configurable" (.obj [])
  let subject ← configurable.getField "cord_subject"
  let assistantId ← run.index "assistant_id"
  let status ← run.index "status"
  pure ⟨assistantId, status, subject⟩

def describeRun (answer : Option Json) (threadId runId : String) : Except Exc Description := do
  if blank threadId then .error ⟨.value, "Thread ID must be a non-empty string"⟩
  else if blank runId then .error ⟨.value, "Run ID must be a non-empty string"⟩
  else
    let run ← requested answer
    describe run

/-- A status that is not a text of the table is unknown, and a container cannot be looked up in it. -/
def runtimeStatus (status : Json) : Except Exc RuntimeStatus :=
  if status.hashable then
    match status with
    | .str raw => .ok (AegraBackend.rawStatus raw)
    | _ => .ok .unknown
  else .error ⟨.type, "unhashable type"⟩

end AegraClient

namespace ApprovalInbox
open AegraClient

/-- The answers of the service of one Deployment. The scan asks for the Run twice. -/
structure Replies where
  statusRun : String → String → Option Json
  run : String → String → Option Json
  state : String → Option Json

/-- An interrupt carries the values that the service sent. -/
structure WaitingInterrupt where
  deployment : String
  assistant : Json
  subject : Json
  logicalRunId : String
  threadId : String
  interruptId : Json
  value : Json
  revision : Json

/-- The waits of a scan share these settings. -/
structure Waiting where
  reminderAfter : Time
  timeoutAfter : Time
  now : Time

/-- The `try` block reads the description and the state of an interrupted Run. -/
def probe (replies : Replies) (threadId latest : String) : Except Exc (Option (Description × Json)) := do
  let info ← describeRun (replies.statusRun threadId latest) threadId latest
  let status ← runtimeStatus info.status
  if status = .interrupted then
    let info ← describeRun (replies.run threadId latest) threadId latest
    let state ← requested (replies.state threadId)
    pure (some (info, state))
  else pure none

def waitingInterrupt (deployment threadId : String) (record : LogicalRun) (info : Description) (revision : Json)
    (interrupt : Json) : Except Exc WaitingInterrupt := do
  let interruptId ← interrupt.index "id"
  let value ← interrupt.getField "value"
  pure ⟨deployment, info.assistantId, info.subject, record.runId, threadId, interruptId, value, revision⟩

/-- The clock starts before the revision and the interrupts are read. -/
def reportInterrupts (deployment threadId : String) (record : LogicalRun) (settings : Waiting) (info : Description)
    (state : Json) : Py (List WaitingInterrupt) := do
  let interrupts ← Fallible.ofExcept (interruptsOf state)
  if interrupts.isEmpty then
    pure []
  else
    let _ ← ApprovalExpiry.recordWaiting deployment threadId record.runId settings.now settings.reminderAfter
      settings.timeoutAfter
    Fallible.ofExcept (do
      let revision ← revisionOf state
      interrupts.mapM (waitingInterrupt deployment threadId record info revision))

/-- Only a `RuntimeError` of the `try` block skips the Thread. -/
def discoverThread (deployment threadId : String) (record : LogicalRun) (settings : Waiting) (replies : Replies) :
    Py (List WaitingInterrupt) :=
  match record.apiRunIds.getLast? with
  | none => raise .index "list index out of range"
  | some latest =>
      match probe replies threadId latest with
      | .error exc => if exc.isRuntimeError then pure [] else Fallible.raise exc
      | .ok none => pure []
      | .ok (some (info, state)) => reportInterrupts deployment threadId record settings info state

def discoverThreads (deployment : String) (settings : Waiting) (replies : Replies) :
    List (String × LogicalRun) → Py (List WaitingInterrupt)
  | [] => pure []
  | (threadId, record) :: rest => do
      let found ← discoverThread deployment threadId record settings replies
      let others ← discoverThreads deployment settings replies rest
      pure (found ++ others)

/-- A Deployment without a connection is not scanned. -/
def discoverDeployments (connections : Dict String Connection) (settings : Waiting) (replies : String → Replies) :
    List (String × Dict String LogicalRun) → Py (List WaitingInterrupt)
  | [] => pure []
  | (deployment, threads) :: rest => do
      let found ← (if (connections.get? deployment).isSome then
        discoverThreads deployment settings (replies deployment) threads.items else pure [])
      let others ← discoverDeployments connections settings replies rest
      pure (found ++ others)

/-- The replies of a Deployment come from its own service. -/
def discoverWaiting (settings : Waiting) (replies : String → Replies) : Py (List WaitingInterrupt) := do
  let connections ← loadConnections
  let continuity ← RunContinuity.loadRunContinuity
  discoverDeployments connections settings replies continuity.items

end ApprovalInbox

end Cordboard
