import Cordboard.Construction.Tracking

namespace Cordboard
open Data Effects

/-- The execution is in one of these states. -/
inductive RuntimeStatus where
  | queued
  | running
  | interrupted
  | succeeded
  | failed
  | cancelled
  | unknown
deriving DecidableEq

/-- A wait call returns for one of these reasons. -/
inductive ClientWaitOutcome where
  | completed
  | deadlineReached
  | transportError
deriving DecidableEq

/-- The default backend result carries identity and status only. -/
structure ExecutionResult where
  logicalRunId : String
  invocationId : String
  threadId : String
  assistantId : String
  status : RuntimeStatus
  waitOutcome : ClientWaitOutcome
deriving DecidableEq

namespace AegraBackend

/-- An unrecognized raw status is unknown. -/
def rawStatus (raw : String) : RuntimeStatus :=
  if raw = "pending" then .queued
  else if raw = "running" then .running
  else if raw = "interrupted" then .interrupted
  else if raw = "success" then .succeeded
  else if raw = "error" then .failed
  else if raw = "cancelled" then .cancelled
  else .unknown

def getState (endpoint threadId : String) : Py Json := do
  let answer ← call (.threadState endpoint threadId)
  Fallible.ofExcept answer

def getRun (endpoint threadId invocationId : String) : Py RunInfo := do
  let answer ← call (.describeRun endpoint threadId invocationId)
  Fallible.ofExcept answer

/-- The last poll decides the outcome. A waiting status ends the loop only at its deadline. -/
def waitForRun (endpoint threadId invocationId : String) (timeout : Time) :
    Py (RuntimeStatus × ClientWaitOutcome) := do
  let answer ← call (.lastPoll endpoint threadId invocationId timeout)
  match answer with
  | .error exc => if exc.isRuntimeError then pure (.unknown, .transportError) else Fallible.raise exc
  | .ok raw =>
      if raw = "pending" ∨ raw = "running" then
        pure (rawStatus raw, .deadlineReached)
      else
        pure (rawStatus raw, .completed)

/-- The resume is submitted, awaited, and recorded under its logical Run. -/
def resume (endpoint deployment threadId assistant : String) (resumeValue : Json) (timeout : Time) :
    Py ExecutionResult := do
  if blank threadId then raise .value "Thread ID must be a non-empty string"
  else if blank assistant then raise .value "Assistant must be a non-empty string"
  else
    let answer ← call (.submitResume endpoint threadId assistant resumeValue)
    let invocationId ← Fallible.ofExcept answer
    let (status, waitOutcome) ← waitForRun endpoint threadId invocationId timeout
    let logicalRunId ← RunContinuity.recordSubmission deployment threadId invocationId
    pure ⟨logicalRunId, invocationId, threadId, assistant, status, waitOutcome⟩

end AegraBackend

/-- An authorization asks the entity and nothing else. -/
def Effect.isAuthorization : Effect → Prop
  | .call (.authorize ..) => True
  | .call (.postAuthorize ..) => True
  | _ => False

/-- The owning entity decides, and its boundary does not touch the board. -/
structure EntityAuthBoundary where
  authorize : AuthSubmission → Json → Bool → Py AuthDecision
  external : ∀ submission currentRevision stillPending,
    (authorize submission currentRevision stillPending).Uses Effect.isAuthorization

namespace EntityAuth

/-- This boundary can give any answer. -/
def opaqueBoundary : EntityAuthBoundary where
  authorize submission currentRevision stillPending := do
    let answer ← call (.authorize submission currentRevision stillPending)
    Fallible.ofExcept answer
  external _ _ _ := Fallible.Uses.bind ⟨trivial, fun _ => trivial⟩ fun answer => Fallible.uses_ofExcept answer

/-- The body names every field of the submission. -/
def requestBody (submission : AuthSubmission) : Json :=
  .obj [("deployment", .str submission.deployment), ("assistant", .str submission.assistant),
    ("thread_id", .str submission.threadId), ("interrupt_id", .str submission.interruptId),
    ("approver", .str submission.approver), ("response_value", submission.responseValue),
    ("revision", Json.ofText submission.revision)]

/-- A decision is a JSON object with a boolean and an optional text, from a response with status 200. -/
def parseDecision (response : HttpResponse) : Option AuthDecision :=
  if response.statusCode ≠ 200 then none
  else
    match response.body with
    | some (.obj members) =>
        match members.lookup "accepted", (members.lookup "reason").getD (.str "") with
        | some (.bool accepted), .str reason =>
            some ⟨accepted, if reason = "" then (if accepted then "authorized" else "rejected") else reason⟩
        | _, _ => none
    | _ => none

def invalidResponse : AuthDecision :=
  ⟨false, "authority endpoint unreachable or returned an invalid response"⟩

/-- The local checks come first. A response that does not match the contract is a rejection. -/
def httpAuthorize (authEndpoint : String) (submission : AuthSubmission) (currentRevision : Json)
    (stillPending : Bool) : Py AuthDecision := do
  if !stillPending then
    pure ⟨false, "stale: interrupt is no longer pending"⟩
  else if !(Json.ofText submission.revision).pyEq currentRevision then
    pure ⟨false, "revision mismatch: interrupt state has moved on"⟩
  else
    let answer ← call (.postAuthorize (authEndpoint ++ "/authorize") (requestBody submission))
    match answer with
    | .error exc =>
        if exc.kind = .request ∨ exc.isValueError ∨ exc.kind = .key then pure invalidResponse
        else Fallible.raise exc
    | .ok response => pure ((parseDecision response).getD invalidResponse)

theorem httpAuthorize_uses (authEndpoint : String) (submission : AuthSubmission) (currentRevision : Json)
    (stillPending : Bool) :
    (httpAuthorize authEndpoint submission currentRevision stillPending).Uses Effect.isAuthorization := by
  unfold httpAuthorize
  split
  · exact Fallible.uses_pure _
  split
  · exact Fallible.uses_pure _
  refine Fallible.Uses.bind (show Fallible.Uses _ (call _) from ⟨trivial, fun _ => trivial⟩) fun answer => ?_
  cases answer with
  | error exc => dsimp only; split <;> trivial
  | ok response => exact Fallible.uses_pure _

/-- The stored endpoint ends without a slash. -/
def stripSlashes (endpoint : String) : String :=
  String.ofList (endpoint.toList.reverse.dropWhile (· == '/')).reverse

/-- This boundary delegates the identity decision to an entity-owned HTTP port. -/
def httpEntityAuthBoundary (authEndpoint : String) : EntityAuthBoundary where
  authorize := httpAuthorize (stripSlashes authEndpoint)
  external := httpAuthorize_uses (stripSlashes authEndpoint)

end EntityAuth

end Cordboard
