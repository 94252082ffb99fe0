import Cordboard.Construction.Archive.Health
import Cordboard.Construction.JsonText
import Cordboard.Construction.Viewer.Scope
import Cordboard.Construction.Web.Routes

namespace Cordboard.Web
open Data Archive Viewer LiveReconciliation

/-- The names and the stat times and sizes of the archive files. -/
abbrev Signature : Type := List (String × Int × Int)

/-- What one turn of the loop observes. There is no signature when the system refuses to tell it. -/
structure Tick where
  signature : Option Signature
  inputs : List Input
  live : Dict String LiveRun
  now : Time
  diagnostics : List String

/-- A turn fails when the system, the reader, or the tree raises. -/
inductive UpdateFailure where
  | os
  | read (failure : Archive.Raised)
  | tree (failure : Failure)
deriving DecidableEq

/-- This is `read_archive`. An `ArchiveError` becomes a status, and any other exception goes on. -/
def readArchive (codec : Codec) (inputs : List Input) : Except Archive.Raised SpanMap :=
  if inputs.isEmpty then .ok SpanMap.empty
  else do
    let _ ← archiveHealth codec (filesOf inputs)
    match readActivePaths codec inputs with
    | .ok (spans, _) => .ok (spans.getD SpanMap.empty)
    | .error (.checked (.archive _)) => .ok SpanMap.empty
    | .error failure => .error failure

/-- The recorded Runs of an archive under their identifiers. -/
def readRecorded (codec : Codec) (inputs : List Input) : Except UpdateFailure (Dict String RunRecord) :=
  match readArchive codec inputs with
  | .error failure => .error (.read failure)
  | .ok spans =>
      match buildExecutionTree spans with
      | .error failure => .error (.tree failure)
      | .ok runs => .ok (Dict.ofPairs (runs.map fun run => (run.runId, run)))

structure Update where
  run : Option AnyRun
  source : String
  diagnostics : List String

def sourceText : LiveSource → String
  | .live => "live"
  | .ingestionPending => "ingestion_pending"
  | .ingestionFailed => "ingestion_failed"

/-- The record of the Run stands before its live view. -/
def updateOf (runId : String) (recorded : Dict String RunRecord) (tick : Tick) : Update :=
  let live := (reconcile tick.live recorded.keys tick.now defaultThresholds).views.get? runId
  match recorded.get? runId with
  | some run => ⟨some (.recorded run), "recorded", tick.diagnostics⟩
  | none => ⟨live.map .live, (live.map fun view => sourceText view.source).getD "unavailable", tick.diagnostics⟩

/-- The updates before the generator ends, and the exception that ends it. -/
structure Updates where
  updates : List Update
  stop : Option UpdateFailure

def Updates.after (update : Update) (later : Updates) : Updates := ⟨update :: later.updates, later.stop⟩

/-- This is `run_updates`. The archive is read again only when its signature changes. -/
def runUpdates (codec : Codec) (runId : String) : Option Signature → Dict String RunRecord → List Tick → Updates
  | _, _, [] => ⟨[], none⟩
  | signature, recorded, tick :: rest =>
      match tick.signature with
      | none => ⟨[], some .os⟩
      | some current =>
          if signature = some current then
            (runUpdates codec runId signature recorded rest).after (updateOf runId recorded tick)
          else
            match readRecorded codec tick.inputs with
            | .error failure => ⟨[], some failure⟩
            | .ok recorded => (runUpdates codec runId (some current) recorded rest).after (updateOf runId recorded tick)

section Values
variable (floats : Json.FloatText)

def nanoseconds (value : Nat) : Json := .int value

def AttemptRecord.json (attempt : AttemptRecord) : Json :=
  .obj [("number", attempt.number), ("tier", attempt.tier), ("outcome", attempt.outcome),
    ("start_ns", nanoseconds attempt.startNs), ("end_ns", nanoseconds attempt.endNs)]

mutual

def stepJson : StepRecord → Json
  | ⟨spanId, node, outcome, startNs, endNs, resumedFrom, repeatedExecution, attempts, childSteps, approvalWaitNs,
      awaitingResume⟩ =>
      .obj [("span_id", .str spanId), ("node", node), ("outcome", outcome), ("start_ns", nanoseconds startNs),
        ("end_ns", nanoseconds endNs), ("resumed_from", resumedFrom), ("repeated_execution", .bool repeatedExecution),
        ("attempts", .arr (attempts.map AttemptRecord.json)), ("child_steps", .arr (stepsJson childSteps)),
        ("approval_wait_ns", (approvalWaitNs.map nanoseconds).getD .null), ("awaiting_resume", .bool awaitingResume)]

def stepsJson : List StepRecord → List Json
  | [] => []
  | step :: rest => stepJson step :: stepsJson rest

end

def runJson (run : RunRecord) : Json :=
  .obj [("graph_id", .str run.graphId), ("run_id", .str run.runId), ("subject_type", run.subjectType),
    ("subject_id", run.subjectId), ("start_ns", nanoseconds run.startNs), ("end_ns", nanoseconds run.endNs),
    ("steps", .arr (stepsJson run.steps)), ("approval_wait_ns", nanoseconds run.approvalWaitNs),
    ("execution_ns", nanoseconds run.executionNs), ("timeline_incomplete", .bool run.timelineIncomplete)]

/-- The comparable form of a live view leaves out the seconds since its completion. -/
def viewJson (view : LiveView) : Json :=
  .obj [("run_id", .str view.runId), ("thread_id", .str view.threadId),
    ("graph_id", (view.graphId.map Json.str).getD .null), ("assistant_id", view.assistantId),
    ("subject", view.subject), ("aegra_status", view.aegraStatus), ("source", .str (sourceText view.source))]

def AnyRun.json : AnyRun → Json
  | .recorded run => runJson run
  | .live view => viewJson view

/-- Two updates with the same text show no lifecycle change. -/
def Update.text (update : Update) : String :=
  Json.dumps floats (.obj [("run", (update.run.map AnyRun.json).getD .null), ("source", .str update.source),
    ("diagnostics", .arr (update.diagnostics.map .str))])

/-- One frame for a change, and a comment when nothing has changed. -/
def writeUpdates : Nat → Option String → List Update → List String
  | _, _, [] => []
  | number, previous, update :: rest =>
      let text := update.text floats
      if previous = some text then ": heartbeat\n\n" :: writeUpdates number previous rest
      else ("id: " ++ toString (number + 1) ++ "\nevent: snapshot\ndata: " ++ text ++ "\n\n") ::
        writeUpdates (number + 1) (some text) rest

/-- This is `max(0, int(header))`, or zero when the header is not an integer. -/
def startSequence (builtins : Builtins) (lastEventId : Option String) : Nat :=
  ((builtins.int (lastEventId.getD "0")).getD 0).toNat

/-- This is the body that `stream` writes. -/
def streamBody (builtins : Builtins) (codec : Codec) (lastEventId : Option String) (runId : String)
    (ticks : List Tick) : String :=
  String.join (writeUpdates floats (startSequence builtins lastEventId) none
    (runUpdates codec runId none Dict.empty ticks).updates)

end Values

end Cordboard.Web
