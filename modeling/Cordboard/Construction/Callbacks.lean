import Cordboard.Construction.Archive.Execution
import Cordboard.Effects.Interleaving

namespace Cordboard.Callbacks
open Data Effects Execution
open Archive (StepOutcome semconvVersion)

/-- A callback run has a UUID. -/
abbrev Uuid : Type := Nat

/-- This record reopens the trace of a Run after a pause. -/
structure RunContinuation where
  traceId : String
  runSpanId : String
  runId : String
  subject : String
  subjectType : String
  graphId : String
deriving DecidableEq

/-- The tracer gives its n-th span a context. `int(text, 16)` may fail. -/
structure Platform where
  int16 : String → Option Int
  digit : Char → Bool
  context : Nat → SpanContext
  uuid : String

/-- An exception has the classes of its method resolution order, each with its module. -/
structure Exception where
  classes : List (String × String)
deriving DecidableEq

/-- The class is looked up among the bases, also when its import failed. -/
def isGraphInterrupt (error : Exception) : Bool :=
  error.classes.any fun base => base.1 = "langgraph.errors" ∧ base.2 = "GraphInterrupt"

/-- A span object counts the calls of `end`. A span that does not record keeps no attributes. -/
structure TracedSpan where
  name : String
  parent : Option Nat
  context : SpanContext
  recording : Bool
  attributes : Dict String String
  error : Bool
  endings : Nat
deriving DecidableEq

/-- An ended span ignores the attribute. -/
def TracedSpan.setAttribute (span : TracedSpan) (key value : String) : TracedSpan :=
  if span.recording ∧ span.endings = 0 then { span with attributes := span.attributes.set key value } else span

/-- This sets the status `ERROR`. -/
def TracedSpan.setError (span : TracedSpan) : TracedSpan :=
  if span.recording ∧ span.endings = 0 then { span with error := true } else span

def TracedSpan.finish (span : TracedSpan) : TracedSpan := { span with endings := span.endings + 1 }

/-- A Step names its span object. -/
structure OpenStep where
  span : Nat
  attributes : Dict String String
  checkpointNs : String
deriving DecidableEq

structure AwaitingApproval where
  spanId : String
  node : Option String
  checkpointNs : String
deriving DecidableEq

/-- The handler belongs to a new Run, or it reopens a Run. -/
inductive Identity where
  | new (graphId subject subjectType : String) (runId : Option String)
  | resumed (continuation : RunContinuation)

/-- The fields that the lock protects, and the span objects. -/
structure Handler where
  closed : Bool
  runSpan : Option Nat
  runAttributes : Dict String String
  byRunId : Dict Uuid OpenStep
  byCheckpointNs : Dict String OpenStep
  awaitingApprovalSteps : List AwaitingApproval
  pendingResumedFrom : Option String
  spans : List TracedSpan
deriving DecidableEq

/-- A handler starts without spans. -/
def fresh (resumedFrom : Option String) : Handler :=
  ⟨false, none, .empty, .empty, .empty, [], resumedFrom, []⟩

structure Arguments where
  graphId : Option String
  subject : Option String
  subjectType : Option String
  runId : Option String
  resume : Option RunContinuation
  resumedFrom : Option String

/-- An argument that is missing or empty is refused. -/
def required (value : Option String) (message : String) : Except String String :=
  match value with
  | some text => if text = "" then .error message else .ok text
  | none => .error message

/-- The constructor takes a new identity or a continuation, and never both. -/
def create (arguments : Arguments) : Except String (Identity × Handler) :=
  match arguments.resume with
  | some continuation =>
      if arguments.graphId.isSome || arguments.subject.isSome || arguments.subjectType.isSome || arguments.runId.isSome then
        .error "resume= reopens an existing Run; it replaces graph_id/subject/subject_type/run_id"
      else .ok (.resumed continuation, fresh arguments.resumedFrom)
  | none => do
      let graphId ← required arguments.graphId "graph_id is required unless resume= is supplied"
      let subject ← required arguments.subject "subject is required unless resume= is supplied"
      let subjectType ← required arguments.subjectType "subject_type is required unless resume= is supplied"
      .ok (.new graphId subject subjectType arguments.runId, fresh arguments.resumedFrom)

def runAttributes (graphId runId subject subjectType : String) : Dict String String :=
  (((Dict.empty.set "cord.graph.id" graphId).set "cord.run.id" runId).set "cord.subject.id" subject).set
    "cord.subject.type" subjectType

/-- The identifiers of a continuation that are not hexadecimal raise `ValueError`. -/
def ensureRun (platform : Platform) (identity : Identity) (handler : Handler) : Except Raised Handler :=
  if handler.runSpan.isSome then .ok handler
  else match identity with
    | .resumed continuation =>
        match platform.int16 continuation.traceId, platform.int16 continuation.runSpanId with
        | some traceId, some spanId => .ok { handler with
            runSpan := some handler.spans.length
            runAttributes :=
              runAttributes continuation.graphId continuation.runId continuation.subject continuation.subjectType
            spans := handler.spans ++ [⟨"", none, ⟨traceId, spanId⟩, false, .empty, false, 0⟩] }
        | _, _ => .error .value
    | .new graphId subject subjectType runId =>
        let attributes := runAttributes graphId (if runId.getD "" = "" then platform.uuid else runId.getD "") subject
          subjectType
        .ok { handler with
          runSpan := some handler.spans.length
          runAttributes := attributes
          spans := handler.spans ++ [⟨"run", none, platform.context handler.spans.length, true,
            attributes.set "cord.semconv.version" semconvVersion, false, 0⟩] }

/-- The key of the parent is what stands before the last separator. -/
def parentKey (checkpointNs : String) : Option String :=
  if '|' ∈ checkpointNs.toList then
    some (String.ofList ((checkpointNs.toList.reverse.dropWhile fun char => char ≠ '|').drop 1).reverse)
  else none

/-- A missing parent falls back to the Run. -/
def parentSpan (checkpointNs : String) (handler : Handler) : Option Nat :=
  match (parentKey checkpointNs).bind handler.byCheckpointNs.get? with
  | some parentOpen => some parentOpen.span
  | none => handler.runSpan

def stepAttributes (node : String) (handler : Handler) : Dict String String :=
  let attributes := handler.runAttributes.set "cord.node.name" node
  match handler.pendingResumedFrom with
  | some resumedFrom => attributes.set "cord.resumed_from" resumedFrom
  | none => attributes

/-- A Step enters both indexes together. The first Step takes the reference to the Step that it resumes. -/
def pushStep (platform : Platform) (runId : Uuid) (node checkpointNs : String) (handler : Handler) :
    OpenStep × Handler :=
  let attributes := stepAttributes node handler
  let span : TracedSpan := ⟨"step:" ++ node, parentSpan checkpointNs handler, platform.context handler.spans.length,
    true, attributes.set "cord.outcome" "passed", false, 0⟩
  let step : OpenStep := ⟨handler.spans.length, attributes, checkpointNs⟩
  (step, { handler with
    pendingResumedFrom := none
    spans := handler.spans ++ [span]
    byRunId := handler.byRunId.set runId step
    byCheckpointNs := handler.byCheckpointNs.set checkpointNs step })

/-- The locked section of `on_chain_start` opens a Step unless the handler is closed. -/
def openStep (platform : Platform) (identity : Identity) (runId : Uuid) (node checkpointNs : String)
    (handler : Handler) : Except Raised (Option OpenStep × Handler) :=
  if handler.closed then .ok (none, handler)
  else do
    let handler ← ensureRun platform identity handler
    let opened := pushStep platform runId node checkpointNs handler
    .ok (some opened.1, opened.2)

/-- A Step leaves both indexes together. -/
def popStep (runId : Uuid) (handler : Handler) : Option OpenStep × Handler :=
  match handler.byRunId.get? runId with
  | some step => (some step, { handler with
      byRunId := handler.byRunId.erase runId
      byCheckpointNs := handler.byCheckpointNs.erase step.checkpointNs })
  | none => (none, handler)

def Handler.change (handler : Handler) (span : Nat) (update : TracedSpan → TracedSpan) : Handler :=
  { handler with spans := handler.spans.modify span update }

/-- A graph interrupt is a controlled pause. Its Step keeps a status without an error. -/
def recordError (error : Exception) (step : OpenStep) (handler : Handler) : Handler :=
  if isGraphInterrupt error then
    let handler := handler.change step.span fun span => span.setAttribute "cord.outcome" "awaiting_approval"
    { handler with awaitingApprovalSteps := handler.awaitingApprovalSteps ++
        [⟨((handler.spans[step.span]?).map fun span => hexText 16 span.context.spanId).getD "",
          step.attributes.get? "cord.node.name", step.checkpointNs⟩] }
  else handler.change step.span fun span => (span.setAttribute "cord.outcome" "failed").setError

def failStep (runId : Uuid) (error : Exception) (handler : Handler) : Option OpenStep × Handler :=
  match popStep runId handler with
  | (some step, handler) => (some step, recordError error step handler)
  | (none, handler) => (none, handler)

/-- The first close takes every open Step and the Run. -/
def shut (handler : Handler) : Option (List OpenStep × Option Nat) × Handler :=
  if handler.closed then (none, handler)
  else (some (handler.byRunId.items.map Prod.snd, handler.runSpan),
    { handler with closed := true, byRunId := .empty, byCheckpointNs := .empty })

/-- A call of a span object outside the lock. -/
inductive Work where
  | setOutcome (span : Nat) (value : String)
  | setError (span : Nat)
  | finish (span : Nat)
deriving DecidableEq

def Work.span : Work → Nat
  | .setOutcome span _ => span
  | .setError span => span
  | .finish span => span

def Work.apply : Work → TracedSpan → TracedSpan
  | .setOutcome _ value, span => span.setAttribute "cord.outcome" value
  | .setError _, span => span.setError
  | .finish _, span => span.finish

/-- A locked section is one operation, and so is each call of a span object outside the lock. -/
inductive Op where
  | openStep (runId : Uuid) (node checkpointNs : String)
  | popStep (runId : Uuid)
  | failStep (runId : Uuid) (error : Exception)
  | shut
  | work (work : Work)
deriving DecidableEq

abbrev Op.Answer : Op → Type
  | .openStep .. => Except Raised (Option OpenStep)
  | .popStep _ => Option OpenStep
  | .failStep .. => Option OpenStep
  | .shut => Option (List OpenStep × Option Nat)
  | .work _ => Unit

abbrev signature : Signature := ⟨Op, Op.Answer⟩

abbrev Callback : Type → Type := Fallible signature Raised

abbrev request (op : Op) : Callback op.Answer := @Fallible.request signature Raised op

section
variable (platform : Platform) (identity : Identity)

/-- A section that raises leaves the handler as it was. -/
def respond (handler : Handler) : (op : Op) → op.Answer × Handler
  | .openStep runId node checkpointNs =>
      match openStep platform identity runId node checkpointNs handler with
      | .ok (step, handler) => (.ok step, handler)
      | .error raised => (.error raised, handler)
  | .popStep runId => popStep runId handler
  | .failStep runId error => failStep runId error handler
  | .shut => shut handler
  | .work work => ((), handler.change work.span work.apply)

/-- The threads share the handler. -/
def sharing (Pid : Type) : Sharing signature Handler Pid where
  step _ handler op answer after := respond platform identity handler op = (answer, after)
  crash _ handler := handler

end

structure Metadata where
  node : Option String
  checkpointNs : Option String

/-- The tag is `graph:step:` and digits. One line break may stand at the end. -/
def isStepTag (platform : Platform) (tag : String) : Bool :=
  match tag.toList.dropPrefix? "graph:step:".toList with
  | some rest => rest.takeWhile platform.digit ≠ [] ∧ rest.dropWhile platform.digit ∈ [[], ['\n']]
  | none => false

def stepTagged (platform : Platform) (tags : Option (List String)) : Bool := (tags.getD []).any (isStepTag platform)

/-- A callback whose metadata name no node or no namespace is no Pregel task. -/
def onChainStart (platform : Platform) (runId : Uuid) (tags : Option (List String)) (metadata : Option Metadata) :
    Callback Unit :=
  let node := (metadata.bind Metadata.node).getD ""
  let checkpointNs := (metadata.bind Metadata.checkpointNs).getD ""
  if !stepTagged platform tags then pure ()
  else if node = "" ∨ checkpointNs = "" then pure ()
  else do
    let outcome ← request (.openStep runId node checkpointNs)
    Fallible.ofExcept (outcome.map fun _ => ())

/-- The span of a Step ends after the lock is left. -/
def finishStep : Option OpenStep → Callback Unit
  | some step => request (.work (.finish step.span))
  | none => pure ()

def onChainEnd (runId : Uuid) : Callback Unit := do
  let step ← request (.popStep runId)
  finishStep step

def onChainError (runId : Uuid) (error : Exception) : Callback Unit := do
  let step ← request (.failStep runId error)
  finishStep step

def finishLeaked : List OpenStep → Callback Unit
  | [] => pure ()
  | step :: leaked => do
      request (.work (.setOutcome step.span "failed"))
      request (.work (.setError step.span))
      request (.work (.finish step.span))
      finishLeaked leaked

def finishRun : Option Nat → Callback Unit
  | some span => request (.work (.finish span))
  | none => pure ()

def finishTaken : Option (List OpenStep × Option Nat) → Callback Unit
  | some (leaked, runSpan) => do
      finishLeaked leaked
      finishRun runSpan
  | none => pure ()

/-- A handler that is already closed has nothing more to close. -/
def close : Callback Unit := do
  let taken ← request .shut
  finishTaken taken

/-- One call of the handler from some thread. -/
inductive Call where
  | onChainStart (runId : Uuid) (tags : Option (List String)) (metadata : Option Metadata)
  | onChainEnd (runId : Uuid)
  | onChainError (runId : Uuid) (error : Exception)
  | close

def Call.perform (platform : Platform) : Call → Callback Unit
  | .onChainStart runId tags metadata => Callbacks.onChainStart platform runId tags metadata
  | .onChainEnd runId => Callbacks.onChainEnd runId
  | .onChainError runId error => Callbacks.onChainError runId error
  | .close => Callbacks.close

end Cordboard.Callbacks
