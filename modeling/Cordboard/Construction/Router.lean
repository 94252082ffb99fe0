import Cordboard.Construction.Claims
import Cordboard.Construction.Tracking
import Cordboard.Construction.Lifecycle

namespace Cordboard
open Data Effects

/-- The three sources that a caller declares. -/
inductive Source where
  | manual
  | file
  | schedule
deriving DecidableEq

/-- A caller emits an external Signal. Only the platform emits a `run.finished` Signal. -/
inductive Signal where
  | external (source : Source) (id : String) (payload : List (String × Json))
  | finished (run : FinishedRun)

namespace Signal

def type : Signal → SignalType
  | .external .manual .. => .manual
  | .external .file .. => .file
  | .external .schedule .. => .schedule
  | .finished _ => .runFinished

def id : Signal → String
  | .external _ id _ => id
  | .finished run => "run.finished:" ++ run.runId

def payload : Signal → Json
  | .external _ _ members => .obj members
  | .finished run => .obj [("run_id", .str run.runId), ("subject", .str run.subject),
      ("connection", .str run.connection), ("assistant", .str run.assistant), ("status", .str run.status),
      ("cascade_depth", .int run.cascadeDepth)]

/-- The completed Run causes the Run that this Signal starts. -/
def causedByRunId : Signal → Option String
  | .external .. => none
  | .finished run => some run.runId

/-- A child runs one level below the Run that caused it. -/
def childCascadeDepth : Signal → Nat
  | .external .. => 0
  | .finished run => run.cascadeDepth + 1

end Signal

/-- The platform builds this Signal from non-empty texts only. -/
def runFinishedSignal (run : FinishedRun) : Except Exc Signal :=
  match [("run_id", run.runId), ("subject", run.subject), ("connection", run.connection),
      ("assistant", run.assistant), ("status", run.status)].find? fun field => blank field.2 with
  | some field => .error ⟨.invalidSignal, "run.finished signal '" ++ field.1 ++ "' must be a non-empty string"⟩
  | none => .ok (.finished run)

namespace Router
open DeploymentLifecycle

def maxCascadeDepth : Nat := 5

/-- A claim stays safe for this long over the execution timeout and the health timeout. -/
def staleClaimBuffer : Time := 30

def healthTimeout : Time := 30

/-- A path descends through objects only. -/
def descend : List String → Json → Option Json
  | [], node => some node
  | part :: rest, .obj members => (members.lookup part).bind (descend rest)
  | _ :: _, _ => none

def lookup (payload : Json) (path : String) : Except Exc Json :=
  match descend ((path.toList.splitOn '.').map String.ofList) payload with
  | some value => .ok value
  | none => .error ⟨.mapping, "path '" ++ path ++ "' not found in signal payload"⟩

/-- A Rule applies when the type agrees and each declared path holds its literal. -/
def matchesSignal (rule : Rule) (signal : Signal) : Bool :=
  rule.signalType == signal.type &&
    (if rule.signalType = .runFinished then rule.whenPaths else rule.matchPaths).all fun condition =>
      match lookup signal.payload condition.1 with
      | .ok value => value.pyEq condition.2
      | .error _ => false

/-- The declared paths give the input of the Assistant and its Subject. -/
def apply (rule : Rule) (signal : Signal) : Except Exc (List (String × Json) × String) := do
  let graphInput ← rule.input.mapM fun field => do
    let value ← lookup signal.payload field.2
    pure (field.1, value)
  let subject ← lookup signal.payload rule.subject
  match subject with
  | .str text =>
      if blank text then
        .error ⟨.mapping, "Subject path '" ++ rule.subject ++ "' did not resolve to a non-empty string"⟩
      else
        pure (graphInput, text)
  | _ => .error ⟨.mapping, "Subject path '" ++ rule.subject ++ "' did not resolve to a non-empty string"⟩

/-- The diagnostic file restarts when it is not JSON. -/
def recordUnmatched (signal : Signal) (reason : String) : Py Unit := do
  let file ← readFile .unmatched
  let record : UnmatchedRecord := ⟨signal.type, signal.id, reason⟩
  match file with
  | .missing | .unreadable .notJson => writeAtomic .unmatched [record]
  | .unreadable .wrongShape => raise .attribute "the diagnostics are not a list"
  | .content existing => writeAtomic .unmatched (existing ++ [record])

/-- `route_signal` returns one of these responses. -/
inductive Response where
  | cascadeDepthExceeded (signalId : String) (depth : Nat)
  | unmatched (signalId : String)
  | invalidMapping (signalId rule : String)
  | concurrencySkipped (signalId rule : String)
  | deploymentUnavailable (signalId rule error : String)
  | duplicate (signalId rule : String)
  | executionFailed (signalId rule error : String)
  | routed (signalId rule : String) (result : ExecuteResult) (cascade : Option Response)

/-- The submission ends with a response or an exception, and with the claims it keeps. -/
structure Submitted where
  response : Except Exc Response
  retainDeployment : Bool
  retainConcurrency : Bool

/-- The status that `execute` returned says what is known about the Run. -/
def ExecuteStatus.learned : ExecuteStatus → Learned
  | .success => .succeeded
  | .interrupted => .interrupted
  | .deadline => .active

/-- An accepted Run is anchored to its Thread. A waiting Run is tracked, and keeps its claims while it runs. -/
def recordAccepted (signal : Signal) (rule : Rule) (subject : String) (result : ExecuteResult) (now : Time) :
    Py Submitted := do
  let response : Response := .routed signal.id rule.name result none
  if result.threadId = "" ∨ result.runId = "" then
    pure ⟨.ok response, false, false⟩
  else
    note (.learned rule.connection result.threadId result.runId (ExecuteStatus.learned result.status))
    let _ ← RunContinuity.recordSubmission rule.connection result.threadId result.runId
    if result.status = .success then
      pure ⟨.ok response, false, false⟩
    else
      let stillRunning : Bool := result.status ≠ .interrupted
      -- Both flags are set before the record is written, so they also apply when the write raises.
      let recorded ← (PendingCompletions.recordPending rule.connection result.threadId result.runId
        rule.assistant subject signal.childCascadeDepth stillRunning stillRunning now).attempt
      pure ⟨recorded.map fun _ => response, stillRunning, stillRunning⟩

/-- The Signal is claimed immediately before the Run is submitted. -/
def submitStarted (signal : Signal) (rule : Rule) (connection : Connection) (graphInput : List (String × Json))
    (subject : String) (timeout now : Time) : Py Submitted := do
  let granted ← SignalDedupe.claim signal.id now SignalDedupe.defaultRetentionSeconds
  if !granted then
    pure ⟨.ok (.duplicate signal.id rule.name), false, false⟩
  else
    note (.executing signal.id now)
    let answer ← call (.execute connection.endpoint rule.assistant subject graphInput timeout
      signal.causedByRunId signal.childCascadeDepth)
    match answer with
    | .error exc =>
        if exc.isValueError || exc.isRuntimeError then
          pure ⟨.ok (.executionFailed signal.id rule.name exc.message), false, false⟩
        else
          Fallible.raise exc
    | .ok result => recordAccepted signal rule subject result now

/-- The managed Deployment starts before the Signal is claimed. -/
def submitRun (signal : Signal) (rule : Rule) (connection : Connection) (graphInput : List (String × Json))
    (subject : String) (timeout now : Time) : Py Submitted := do
  let started ← ensureStarted rule.connection connection now healthTimeout (.hop signal.childCascadeDepth)
  match started with
  | .startFailed error => pure ⟨.ok (.deploymentUnavailable signal.id rule.name error), false, false⟩
  | .external | .running _ => submitStarted signal rule connection graphInput subject timeout now

/-- The `finally` block drops each claim that the submission does not keep. -/
def releaseUnlessRetained (signal : Signal) (rule : Rule) (connection : Connection) (subject : String)
    (now : Time) (retainDeployment retainConcurrency : Bool) : Py Unit := do
  whenever (!retainDeployment) (releaseActive rule.connection connection now (.hop signal.childCascadeDepth))
  whenever (!retainConcurrency) (Concurrency.release rule.assistant subject (.hop signal.childCascadeDepth))

/-- The submission runs between the claim and the `finally` block. -/
def settleRun (signal : Signal) (rule : Rule) (connection : Connection) (graphInput : List (String × Json))
    (subject : String) (timeout now : Time) : Py Response := do
  let settled ← (submitRun signal rule connection graphInput subject timeout now).attempt
  match settled with
  | .error exc =>
      releaseUnlessRetained signal rule connection subject now false false
      Fallible.raise exc
  | .ok submitted =>
      releaseUnlessRetained signal rule connection subject now
        submitted.retainDeployment submitted.retainConcurrency
      Fallible.ofExcept submitted.response

/-- A successful Run cascades once its own claims are released. -/
def chain (cascade : Signal → Py Response) (signal : Signal) (rule : Rule) (subject : String)
    (response : Response) : Py Response := do
  match response with
  | .routed signalId name result none =>
      if result.status = .success ∧ result.runId ≠ "" then
        let finished ← Fallible.ofExcept (runFinishedSignal
          ⟨result.runId, subject, rule.connection, rule.assistant, "success", signal.childCascadeDepth⟩)
        let child ← cascade finished
        pure (.routed signalId name result (some child))
      else
        pure response
  | other => pure other

/-- A mapped Signal runs under the claim of its (Assistant, Subject) pair. -/
def routeMapped (cascade : Signal → Py Response) (signal : Signal) (rule : Rule) (connection : Connection)
    (graphInput : List (String × Json)) (subject : String) (timeout now : Time) : Py Response := do
  let staleAfter := timeout + healthTimeout + staleClaimBuffer
  let taken ← Concurrency.tryClaim rule.assistant subject now staleAfter (.hop signal.childCascadeDepth)
  if !taken then
    pure (.concurrencySkipped signal.id rule.name)
  else
    let response ← settleRun signal rule connection graphInput subject timeout now
    chain cascade signal rule subject response

/-- The mapping and the connection of a matched Rule fail in the same way. -/
def mapRule (rule : Rule) (signal : Signal) : Py ((List (String × Json) × String) × Connection) := do
  let mapped ← Fallible.ofExcept (apply rule signal)
  let connection ← getConnection rule.connection
  pure (mapped, connection)

/-- The first matching Rule decides the target. -/
def routeByRule (cascade : Signal → Py Response) (timeout now : Time) (signal : Signal) : Py Response := do
  let rules ← loadRules
  match rules.filter fun rule => matchesSignal rule signal with
  | [] =>
      recordUnmatched signal "no rule declared for this signal"
      pure (.unmatched signal.id)
  | rule :: _ =>
      let mapped ← (mapRule rule signal).attempt
      match mapped with
      | .error exc =>
          if exc.kind = .mapping ∨ exc.kind = .invalidConnection then
            recordUnmatched signal exc.message
            pure (.invalidMapping signal.id rule.name)
          else
            Fallible.raise exc
      | .ok ((graphInput, subject), connection) =>
          routeMapped cascade signal rule connection graphInput subject timeout now

/-- One level of `route_signal`. The argument `cascade` is its recursive call. -/
def routeHop (cascade : Signal → Py Response) (timeout now : Time) (signal : Signal) : Py Response := do
  match signal with
  | .finished run =>
      note (.routing run)
      if maxCascadeDepth ≤ run.cascadeDepth then
        recordUnmatched signal ("cascade depth " ++ toString run.cascadeDepth ++ " is at the maximum of " ++
          toString maxCascadeDepth)
        pure (.cascadeDepthExceeded signal.id run.cascadeDepth)
      else
        routeByRule cascade timeout now signal
  | .external .. => routeByRule cascade timeout now signal

/-- The fuel bounds the depth of the recursion. -/
def routeWithin (timeout now : Time) : Nat → Signal → Py Response
  | 0 => fun _ => raise .other "the cascade is deeper than its bound"
  | fuel + 1 => routeHop (routeWithin timeout now fuel) timeout now

/-- The recursion visits at most this many levels from this Signal on. -/
def remainingDepth : Signal → Nat
  | .external .. => maxCascadeDepth + 2
  | .finished run => maxCascadeDepth - run.cascadeDepth + 1

def routeSignal (signal : Signal) (timeout now : Time) : Py Response :=
  routeWithin timeout now (remainingDepth signal) signal

/-- One observed entry of a sweep. -/
structure Observed where
  deployment : String
  threadId : String
  status : String
  cascade : Option Response

/-- The raw status says what is known about the invocation. -/
def learnedRaw (rawStatus : String) : Learned :=
  if rawStatus = "pending" ∨ rawStatus = "running" then .active
  else if rawStatus = "interrupted" then .interrupted
  else if rawStatus = "success" then .succeeded
  else .terminated

/-- The claims that the entry still holds are released on its behalf. -/
def releaseHeld (connection : Connection) (deployment threadId : String) (entry : PendingEntry) (now : Time) :
    Py Unit := do
  whenever entry.deploymentHeld (releaseActive deployment connection now (.entry deployment threadId))
  whenever entry.concurrencyHeld (Concurrency.release entry.assistant entry.subject (.entry deployment threadId))

/-- The logical Run of a Thread names the completed Run, and else the invocation does. -/
def completedRunId (deployment threadId : String) (entry : PendingEntry) : Py String := do
  let found ← (RunContinuity.logicalRun deployment threadId).attempt
  match found with
  | .ok record => pure record.runId
  | .error exc => if exc.kind = .unknownThread then pure entry.invocationId else Fallible.raise exc

/-- A finished invocation leaves the store, and a success cascades after that. -/
def finalizeEntry (connection : Connection) (deployment threadId : String) (entry : PendingEntry)
    (rawStatus : String) (timeout now : Time) : Py (Option Observed) := do
  releaseHeld connection deployment threadId entry now
  let _ ← PendingCompletions.resolvePending deployment threadId
  if rawStatus = "success" then
    let runId ← completedRunId deployment threadId entry
    let finished ← Fallible.ofExcept (runFinishedSignal
      ⟨runId, entry.subject, deployment, entry.assistant, "success", entry.cascadeDepth⟩)
    let cascade ← routeSignal finished timeout now
    note (.cascaded deployment threadId)
    pure (some ⟨deployment, threadId, rawStatus, some cascade⟩)
  else
    pure (some ⟨deployment, threadId, rawStatus, none⟩)

/-- The raw status decides what happens to the claims and to the entry. -/
def settleEntry (connection : Connection) (deployment threadId : String) (entry : PendingEntry)
    (rawStatus : String) (timeout now : Time) : Py (Option Observed) := do
  if rawStatus = "pending" ∨ rawStatus = "running" then
    whenever entry.concurrencyHeld
      (Concurrency.renew entry.assistant entry.subject now (.entry deployment threadId))
    pure none
  else if rawStatus = "interrupted" then
    releaseHeld connection deployment threadId entry now
    let _ ← PendingCompletions.updatePending deployment threadId none (some false) (some false) now
    pure (some ⟨deployment, threadId, rawStatus, none⟩)
  else
    finalizeEntry connection deployment threadId entry rawStatus timeout now

/-- An unknown Deployment or an ambiguous transport failure leaves the entry as it was. -/
def sweepEntry (connections : Dict String Connection) (deployment threadId : String) (entry : PendingEntry)
    (timeout now : Time) : Py (Option Observed) := do
  match connections.get? deployment with
  | none => pure none
  | some connection =>
      let answer ← call (.describeRun connection.endpoint threadId entry.invocationId)
      match answer with
      | .error exc => if exc.isRuntimeError then pure none else Fallible.raise exc
      | .ok info =>
          note (.observed deployment threadId entry.invocationId (learnedRaw info.status))
          settleEntry connection deployment threadId entry info.status timeout now

/-- The sweep visits the snapshot in file order. -/
def sweepEntries (connections : Dict String Connection) (timeout now : Time) :
    List ((String × String) × PendingEntry) → Py (List Observed)
  | [] => pure []
  | ((deployment, threadId), entry) :: rest => do
      let observed ← sweepEntry connections deployment threadId entry timeout now
      let others ← sweepEntries connections timeout now rest
      pure (observed.toList ++ others)

def sweepPending (timeout now : Time) : Py (List Observed) := do
  let connections ← loadConnections
  let tracked ← PendingCompletions.loadPending
  sweepEntries connections timeout now tracked.items

end Router

end Cordboard
