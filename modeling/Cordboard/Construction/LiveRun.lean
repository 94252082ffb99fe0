import Cordboard.Construction.Discovery

namespace Cordboard
open Data

namespace AegraClient

/-- The answer names the Graph of an Assistant. -/
def describeAssistant (answer : Option Json) (assistantId : Json) : Except Exc Json :=
  match assistantId with
  | .str text =>
      if blank text then .error ⟨.value, "Assistant ID must be a non-empty string"⟩
      else do
        let assistant ← requested answer
        assistant.index "graph_id"
  | _ => .error ⟨.value, "Assistant ID must be a non-empty string"⟩

/-- A lifecycle frame carries its decoded data, and perhaps an identifier. -/
structure LifecycleEvent where
  event : String
  data : List (String × Json)
  eventId : Option String

end AegraClient

namespace LiveReconciliation
open AegraClient

/-- These built-in functions read an integer and write a value. -/
structure Builtins where
  int : String → Option Int
  str : Json → String

/-- The text after the last separator. -/
def afterLast (separator : List Char) : List Char → Option (List Char)
  | [] => none
  | c :: rest =>
      match afterLast separator rest with
      | some tail => some tail
      | none => if separator.isPrefixOf (c :: rest) then some ((c :: rest).drop separator.length) else none

/-- This is `text.rsplit(separator, 1)[-1]`. -/
def lastPart (separator text : String) : String :=
  match afterLast separator.toList text.toList with
  | some tail => String.ofList tail
  | none => text

example : lastPart "_event_" "run-1_event_7" = "7" := by decide

def sequence (builtins : Builtins) (eventId : String) : Int :=
  if eventId = "" then 0 else (builtins.int (lastPart "_event_" eventId)).getD 0

structure LiveRun where
  runId : String
  threadId : String
  graphId : Json
  assistantId : Json
  subject : Json
  status : Json
  lastEventSeq : Int
  completedAt : Option Time

/-- No event is applied yet. -/
def LiveRun.create (runId threadId : String) (graphId assistantId subject : Json) : Except Exc LiveRun :=
  if blank runId then .error ⟨.value, "run_id must be a non-empty string"⟩
  else if blank threadId then .error ⟨.value, "thread_id must be a non-empty string"⟩
  else .ok ⟨runId, threadId, graphId, assistantId, subject, .str "pending", -1, none⟩

/-- The state after an event that is not a replay. -/
def LiveRun.fold (live : LiveRun) (event : LifecycleEvent) (now : Time) : LiveRun :=
  if event.event = "end" then
    { live with
      status := ((event.data.lookup "status").getD .null).orElse (.str "success")
      completedAt := live.completedAt.or (some now) }
  else if event.event = "error" then
    { live with status := .str "error", completedAt := live.completedAt.or (some now) }
  else if event.event = "metadata" ∧ live.status.pyEq (.str "pending") = true then
    { live with status := .str "running" }
  else live

/-- A sequence number that is not above the last one marks a replay. -/
def LiveRun.apply (builtins : Builtins) (live : LiveRun) (event : LifecycleEvent) (now : Time) : LiveRun :=
  match event.eventId with
  | none => live.fold event now
  | some eventId =>
      if sequence builtins eventId ≤ live.lastEventSeq then live
      else { live with lastEventSeq := sequence builtins eventId }.fold event now

/-- A Run in one of these states has stopped to send events. An interrupt is a pause. -/
def terminalStatuses : List String := ["success", "error", "timeout", "interrupted"]

/-- A container cannot be looked up in the set. -/
def LiveRun.isTerminal (live : LiveRun) : Except Exc Bool :=
  if live.status.hashable then .ok (terminalStatuses.any fun status => live.status.pyEq (.str status))
  else .error ⟨.type, "unhashable type"⟩

end LiveReconciliation

namespace Cli
open AegraClient LiveReconciliation

/-- Three texts with content name a watched invocation. -/
structure WatchTarget where
  alias_ : String
  threadId : String
  runId : String
  aliasPresent : blank alias_ = false
  threadPresent : blank threadId = false
  runPresent : blank runId = false

def parseWatchTarget (raw : String) : Except Exc WatchTarget :=
  match raw.splitOn ":" with
  | [alias_, threadId, runId] =>
      if present : blank alias_ = false ∧ blank threadId = false ∧ blank runId = false then
        .ok ⟨alias_, threadId, runId, present.1, present.2.1, present.2.2⟩
      else .error ⟨.invalidConnection, "--watch '" ++ raw ++ "' must be ALIAS:THREAD_ID:RUN_ID"⟩
  | _ => .error ⟨.invalidConnection, "--watch '" ++ raw ++ "' must be ALIAS:THREAD_ID:RUN_ID"⟩

/-- The identity that a worker sends before the events. -/
structure Identified where
  graphId : Json
  assistantId : Json
  subject : Json
  status : Json

/-- The workers of one command share a queue of messages. -/
inductive Message where
  | identified (logicalId threadId : String) (payload : Identified)
  | event (logicalId threadId : String) (payload : LifecycleEvent)
  | failed (threadId runId text : String)
  | done (threadId runId : String)

/-- A worker meets these answers. The continuity record is read once. -/
structure WatchAnswers where
  run : Option Json
  assistant : Option Json
  continuity : Except Exc LogicalRun
  events : List LifecycleEvent
  failure : Option Exc

/-- A Thread without a record falls back to the watched Run ID. -/
def resolveLogicalRunId (continuity : Except Exc LogicalRun) (runId : String) : Except Exc String :=
  match continuity with
  | .ok record => .ok record.runId
  | .error exc => if exc.kind = .unknownThread then .ok runId else .error exc

/-- The handlers of the worker catch these two classes. -/
def handled (exc : Exc) : Bool := exc.isRuntimeError || exc.isValueError

def failure (target : WatchTarget) (text : String) : Message :=
  .failed target.threadId target.runId ("cord: --watch " ++ target.threadId ++ "/" ++ target.runId ++ ": " ++ text)

/-- The worker sends the identity, then each event of the stream. -/
def watchStream (target : WatchTarget) (answers : WatchAnswers) (identity : Description) (graphId : Json) :
    List Message :=
  match resolveLogicalRunId answers.continuity target.runId with
  | .error _ => []
  | .ok logicalId =>
      .identified logicalId target.threadId ⟨graphId, identity.assistantId, identity.subject, identity.status⟩ ::
        answers.events.map (.event logicalId target.threadId) ++
          (match answers.failure with
            | some exc => if exc.isRuntimeError then [failure target exc.message] else []
            | none => [])

/-- An exception that no handler catches ends the worker without a message. -/
def watchWorkerBody (builtins : Builtins) (target : WatchTarget) (answers : WatchAnswers) : List Message :=
  match describeRun answers.run target.threadId target.runId with
  | .error exc => if handled exc then [failure target exc.message] else []
  | .ok identity =>
      let unresolved := failure target ("could not resolve a Graph for assistant '" ++
        builtins.str identity.assistantId ++ "'; omitted from the catalog")
      match describeAssistant answers.assistant identity.assistantId with
      | .error exc => if handled exc then [unresolved] else []
      | .ok .null => [unresolved]
      | .ok graphId => watchStream target answers identity graphId

/-- Every path of the worker ends in one `done`. -/
def watchWorker (builtins : Builtins) (target : WatchTarget) (answers : WatchAnswers) : List Message :=
  watchWorkerBody builtins target answers ++ [.done target.threadId target.runId]

/-- The command keeps the live Runs under their logical identifiers. -/
abbrev LiveRuns : Type := Dict String LiveRun

/-- The consumer applies one message at a reading of its clock. -/
def consumeMessage (builtins : Builtins) (liveById : LiveRuns) (message : Message) (now : Time) : Except Exc LiveRuns :=
  match message with
  | .identified logicalId threadId payload => do
      let live ← LiveRun.create logicalId threadId payload.graphId payload.assistantId payload.subject
      let known := payload.status.pyEq (.str "pending") || payload.status.pyEq (.str "running") ||
        payload.status.pyEq (.str "interrupted")
      pure (liveById.set logicalId (if known then { live with status := payload.status } else live))
  | .event logicalId _ payload =>
      match liveById.get? logicalId with
      | none => .error ⟨.key, logicalId⟩
      | some live => .ok (liveById.set logicalId (live.apply builtins payload now))
  | .failed .. => .ok liveById
  | .done .. => .ok liveById

/-- The queue also tells which worker sent a message and when the consumer takes it. -/
structure Entry (I : Type) where
  worker : I
  message : Message
  now : Time

/-- The loop ends after the last `done`. It waits when the queue is empty. -/
def consume {I : Type} (builtins : Builtins) : Nat → List (Entry I) → LiveRuns → Except Exc (Option LiveRuns)
  | 0, _, liveById => .ok (some liveById)
  | _ + 1, [], _ => .ok none
  | remaining + 1, entry :: rest, liveById => do
      let next ← consumeMessage builtins liveById entry.message entry.now
      match entry.message with
      | .done .. => consume builtins remaining rest next
      | _ => consume builtins (remaining + 1) rest next

end Cli

end Cordboard
