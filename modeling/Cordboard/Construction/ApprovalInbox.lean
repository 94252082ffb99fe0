import Cordboard.Construction.Router
import Cordboard.Construction.Backend

namespace Cordboard
open Data Effects

namespace Json

/-- This is `value.get(name)`, which returns `None` for a missing member. -/
def getField (value : Json) (name : String) : Except Exc Json :=
  match value with
  | .obj members => .ok ((members.lookup name).getD .null)
  | _ => .error ⟨.attribute, "object has no attribute 'get'"⟩

/-- This is `value[name]` for a text. -/
def index (value : Json) (name : String) : Except Exc Json :=
  match value with
  | .obj members =>
      match members.lookup name with
      | some member => .ok member
      | none => .error ⟨.key, name⟩
  | _ => .error ⟨.type, "value cannot be indexed by a string"⟩

/-- This is how a `for` loop visits a value. -/
def iterate : Json → Except Exc (List Json)
  | .arr items => .ok items
  | .obj members => .ok (members.map fun member => .str member.1)
  | .str text => .ok (text.toList.map fun c => .str (String.singleton c))
  | _ => .error ⟨.type, "object is not iterable"⟩

/-- A set holds hashable values only. -/
def hashable : Json → Bool
  | .arr _ => false
  | .obj _ => false
  | _ => true

end Json

namespace ApprovalInbox
open DeploymentLifecycle Router

def healthTimeout : Time := 30

inductive SubmissionStatus where
  | deploymentUnavailable
  | duplicate
  | rejected
  | resumed
  | unknown
deriving DecidableEq

/-- An ambiguous transport outcome is a status and not an exception. -/
structure SubmissionResult where
  status : SubmissionStatus
  reason : Option String
deriving DecidableEq

def revisionOf (state : Json) : Except Exc Json := do
  let stored ← state.getField "checkpoint"
  let checkpoint := stored.orElse (.obj [])
  let revision ← checkpoint.getField "checkpoint_id"
  if revision.truthy then pure revision else state.getField "checkpoint_id"

/-- A completed task keeps its old interrupts, which no longer wait. -/
def taskInterrupts (task : Json) : Except Exc (List Json) := do
  let result ← task.getField "result"
  match result with
  | .null => do
      let stored ← task.getField "interrupts"
      (stored.orElse (.arr [])).iterate
  | _ => pure []

def interruptsOf (state : Json) : Except Exc (List Json) := do
  let stored ← state.getField "tasks"
  let tasks ← (stored.orElse (.arr [])).iterate
  let found ← tasks.mapM taskInterrupts
  pure found.flatten

/-- The identifiers form a set of hashable values. -/
def interruptIds (interrupts : List Json) : Except Exc (List Json) :=
  interrupts.mapM fun interrupt => do
    let id ← interrupt.index "id"
    if id.hashable then pure id else .error ⟨.type, "unhashable type"⟩

/-- The submission reads these facts from the current Thread state. -/
structure ThreadFacts where
  stillPending : Bool
  currentRevision : Json

def readPending (state : Json) (interruptId : String) : Except Exc ThreadFacts := do
  let interrupts ← interruptsOf state
  let ids ← interruptIds interrupts
  let currentRevision ← revisionOf state
  pure ⟨ids.any fun id => (Json.str interruptId).pyEq id, currentRevision⟩

/-- One operator's answer targets one interrupt on one Thread. -/
structure Submission where
  deployment : String
  threadId : String
  interruptId : String
  approver : String
  responseValue : Json
  revision : Option String
  now : Time
  timeout : Time

/-- A description names the Assistant and the Subject of a Run. -/
structure Described where
  assistant : String
  subject : Option String

/-- The latest recorded invocation names the Assistant and the Subject. -/
def describeLatest (submission : Submission) (endpoint : String) : Py Described := do
  let described ← (do
    let record ← RunContinuity.logicalRun submission.deployment submission.threadId
    match record.apiRunIds.getLast? with
    | none => raise .index "list index out of range"
    | some latest => AegraBackend.getRun endpoint submission.threadId latest : Py RunInfo).attempt
  match described with
  | .ok info => pure ⟨info.assistantId.getD "", info.subject⟩
  | .error exc =>
      if exc.isRuntimeError ∨ exc.kind = .unknownThread then pure ⟨"", none⟩ else Fallible.raise exc

/-- An interrupt that no longer waits is not described. -/
def describePending (submission : Submission) (endpoint : String) (stillPending : Bool) : Py Described :=
  if stillPending then describeLatest submission endpoint else pure ⟨"", none⟩

def recordOutcome (submission : Submission) (outcome : ResponseOutcome) : Py Unit := do
  let _ ← ResponseDedupe.recordOutcome submission.deployment submission.threadId submission.interruptId
    outcome submission.now

/-- The resumed outcome says what is known about the invocation. -/
def learnedResult (result : ExecutionResult) : Learned :=
  match result.status, result.waitOutcome with
  | .succeeded, _ => .succeeded
  | .interrupted, _ => .interrupted
  | _, .deadlineReached => .active
  | _, .transportError => .transportFailure
  | _, .completed => .terminated

/-- A body returns its result together with the decision to keep the activity claim. -/
structure Answered where
  result : Except Exc SubmissionResult
  retainDeployment : Bool

/-- A Subject or an Assistant counts only when it is not the empty text. -/
def present (text : Option String) : Bool :=
  match text with
  | some value => value ≠ ""
  | none => false

/-- The tracked entry supplies a Subject that the description lacks. -/
def subjectOf (described : Described) (pending : Option PendingEntry) : Option String :=
  if present described.subject then described.subject else
    match pending with
    | some entry => some entry.subject
    | none => described.subject

/-- The resumed outcome decides the claim, the tracking, and the cascade. -/
def afterResume (submission : Submission) (assistant : String) (subject : Option String) (cascadeDepth : Nat)
    (result : ExecutionResult) : Py Answered := do
  let resumed : SubmissionResult := ⟨.resumed, none⟩
  let track (held : Bool) : Py Unit :=
    PendingCompletions.recordPending submission.deployment submission.threadId result.invocationId assistant
      (subject.getD "") cascadeDepth false held submission.now
  if result.status = .succeeded then
    let _ ← PendingCompletions.resolvePending submission.deployment submission.threadId
    match subject with
    | some text =>
        if text ≠ "" ∧ assistant ≠ "" then
          let finished ← Fallible.ofExcept (runFinishedSignal
            ⟨result.logicalRunId, text, submission.deployment, assistant, "success", cascadeDepth⟩)
          let _ ← routeSignal finished submission.timeout submission.now
          pure ⟨.ok resumed, false⟩
        else
          pure ⟨.ok resumed, false⟩
    | none => pure ⟨.ok resumed, false⟩
  else if result.status = .interrupted then
    track false
    pure ⟨.ok resumed, false⟩
  else if result.waitOutcome = .deadlineReached then
    -- The flag is set before the record is written, so it also applies when the write raises.
    let tracked ← (track true).attempt
    pure ⟨tracked.map fun _ => resumed, true⟩
  else if result.waitOutcome = .transportError then
    pure ⟨.ok resumed, true⟩
  else
    pure ⟨.ok resumed, false⟩

/-- The approval clock closes when there is one. -/
def closeClock (submission : Submission) : Py Unit := do
  let closed ← (ApprovalExpiry.resolveApproved submission.deployment submission.threadId submission.now).attempt
  match closed with
  | .ok _ => pure ()
  | .error exc => if exc.kind = .unknownWaitingApproval then pure () else Fallible.raise exc

/-- An authorized submission is the only one that reaches `backend.resume`. -/
def resumeAuthorized (submission : Submission) (endpoint : String) (described : Described) : Py Answered := do
  let pending ← PendingCompletions.getPending submission.deployment submission.threadId
  let cascadeDepth := (pending.map PendingEntry.cascadeDepth).getD 0
  let subject := subjectOf described pending
  note (.resuming submission.deployment submission.threadId submission.interruptId)
  let answer ← (AegraBackend.resume endpoint submission.deployment submission.threadId described.assistant
    (.obj [(submission.interruptId, submission.responseValue)]) submission.timeout).attempt
  match answer with
  | .error exc =>
      if exc.isRuntimeError then
        recordOutcome submission .unknown
        pure ⟨.ok ⟨.unknown, some "resume submission had an ambiguous transport outcome"⟩, true⟩
      else
        Fallible.raise exc
  | .ok result =>
      note (.learned submission.deployment submission.threadId result.invocationId (learnedResult result))
      recordOutcome submission .resumed
      closeClock submission
      afterResume submission described.assistant subject cascadeDepth result

/-- The boundary decides on the freshly read state. -/
def authorizeState (submission : Submission) (boundary : EntityAuthBoundary) (endpoint : String) (state : Json) :
    Py Answered := do
  let facts ← Fallible.ofExcept (readPending state submission.interruptId)
  let described ← describePending submission endpoint facts.stillPending
  let decision ← boundary.authorize
    ⟨submission.deployment, described.assistant, submission.threadId, submission.interruptId, submission.approver,
      submission.responseValue, submission.revision⟩ facts.currentRevision facts.stillPending
  if !decision.accepted then
    recordOutcome submission .rejected
    pure ⟨.ok ⟨.rejected, some decision.reason⟩, false⟩
  else
    resumeAuthorized submission endpoint described

/-- The response claim comes before the authorization and the transport. -/
def submitClaimed (submission : Submission) (boundary : EntityAuthBoundary) (endpoint : String) :
    Py Answered := do
  let granted ← ResponseDedupe.claim submission.deployment submission.threadId submission.interruptId submission.now
  if !granted then
    pure ⟨.ok ⟨.duplicate, some "a response to this interrupt was already claimed"⟩, false⟩
  else
    let state ← (AegraBackend.getState endpoint submission.threadId).attempt
    match state with
    | .error exc =>
        if exc.isRuntimeError then
          recordOutcome submission .unknown
          pure ⟨.ok ⟨.unknown, some "could not read current Thread state"⟩, false⟩
        else
          Fallible.raise exc
    | .ok state => authorizeState submission boundary endpoint state

/-- The `finally` block drops the activity claim unless the body keeps it. -/
def settleSubmission (submission : Submission) (boundary : EntityAuthBoundary) (connection : Connection) :
    Py SubmissionResult := do
  let answered ← (submitClaimed submission boundary connection.endpoint).attempt
  match answered with
  | .error exc =>
      releaseActive submission.deployment connection submission.now .submission
      Fallible.raise exc
  | .ok answer =>
      whenever (!answer.retainDeployment) (releaseActive submission.deployment connection submission.now .submission)
      Fallible.ofExcept answer.result

def submitResponse (submission : Submission) (boundary : EntityAuthBoundary) : Py SubmissionResult := do
  let connections ← loadConnections
  match connections.get? submission.deployment with
  | none => raise .approvalInbox ("unknown deployment alias '" ++ submission.deployment ++ "'")
  | some connection =>
      let started ← ensureStarted submission.deployment connection submission.now healthTimeout .submission
      match started with
      | .startFailed error => pure ⟨.deploymentUnavailable, some error⟩
      | .external | .running _ => settleSubmission submission boundary connection

end ApprovalInbox

end Cordboard
