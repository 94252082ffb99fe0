import Cordboard.Construction.Archive.Query
import Mathlib.Algebra.Group.Int.Defs
import Mathlib.Algebra.Group.Nat.Defs

namespace Cordboard.Execution
open Data Archive

/-- A call of the instrumentation raises one of these. -/
inductive Raised where
  | type
  | value
  | attribute
deriving DecidableEq

/-- A span context names a trace and a span of it. -/
structure SpanContext where
  traceId : Int
  spanId : Int
deriving DecidableEq

/-- This is `SpanContext.is_valid`. -/
def SpanContext.valid (context : SpanContext) : Bool :=
  0 < context.traceId ∧ context.traceId < 2 ^ 128 ∧ 0 < context.spanId ∧ context.spanId < 2 ^ 64

/-- The tracer keeps a text or an integer as the value of an attribute, and makes no text from another value. -/
structure Platform where
  int16 : Json → Except Raised Int
  exported : Json → Option Json
  exported_text : ∀ text, exported (.str text) = some (.str text)
  exported_int : ∀ number, exported (.int number) = some (.int number)
  text_of_exported : ∀ value text, exported value = some (.str text) → value = .str text

/-- The hexadecimal digits of a number that fits the width. -/
def hexDigits : Nat → Nat → List Char
  | 0, _ => []
  | width + 1, number => hexDigits width (number / 16) ++ [Nat.digitChar (number % 16)]

/-- This is `format(number, "016x")` with the width of the identifier. -/
def hexText (width : Nat) (number : Int) : String := String.ofList (hexDigits width number.toNat)

section
variable {E : Type}

/-- The scope of a span decides what the end of its body means. -/
inductive Scope (E : Type) where
  | run
  | step (pause : E → Bool)
  | attempt (pause : E → Bool)

/-- A body returns or raises an exception. -/
inductive Ending (E : Type) where
  | returned
  | raised (exception : E)

/-- A controlled pause closes the Step but leaves the Attempt as it was declared. -/
def Scope.outcome : Scope E → Ending E → Option String
  | .run, _ => none
  | _, .returned => none
  | .step pause, .raised exception =>
      some (if pause exception then StepOutcome.awaitingApproval.value else StepOutcome.failed.value)
  | .attempt pause, .raised exception => if pause exception then none else some AttemptOutcome.failed.value

/-- A span as the tracer has started it. -/
structure Opened (E : Type) where
  context : SpanContext
  parent : Option Int
  name : String
  attributes : Dict String Json
  start : Nat
  scope : Scope E

/-- A span ends once and may get another outcome then. -/
structure Closing where
  time : Nat
  outcome : Option String

/-- The objects that a call hands to its body. A resumed Run has no recording span. -/
inductive Handle (E : Type) where
  | run (context : SpanContext) (attributes : Dict String Json) (recording : Bool)
  | step (context : SpanContext) (attributes : Dict String Json) (pause : E → Bool) (base : Dict String Json)

def Handle.context : Handle E → SpanContext
  | .run context _ _ => context
  | .step context _ _ _ => context

/-- The newest span comes first. -/
structure State (E : Type) where
  opened : List (Opened E)
  closed : Dict Int Closing
  handles : List (Handle E)

def State.empty : State E := ⟨[], Dict.empty, []⟩

/-- The ids, the text of `uuid4` and the time that a call gets. -/
structure Supply where
  context : SpanContext
  uuid : String
  now : Nat

structure RunContinuation where
  traceId : Json
  runSpanId : Json
  runId : Json
  subject : Json
  subjectType : Json
  graphId : Json

inductive Call (E : Type) where
  | run (subject subjectType graphId runId causedByRunId cascadeDepth : Json)
  | resumeRun (continuation : RunContinuation)
  | step (handle : Nat) (node : Json) (outcome : Option StepOutcome) (resumedFrom : Json) (pause : E → Bool)
  | child (handle : Nat) (node : Json) (outcome : Option StepOutcome) (resumedFrom : Json) (pause : Option (E → Bool))
  | attempt (handle : Nat) (number tier : Json) (outcome : Option AttemptOutcome)
  | close (spanId : Int) (ending : Ending E)

def check (condition : Bool) (raised : Raised) : Except Raised Unit := if condition then .ok () else .error raised

/-- The value is `None`. -/
def isNone : Json → Bool
  | .null => true
  | _ => false

/-- An optional member is set when it is not `None`. -/
def setOptional (attributes : Dict String Json) (key : String) (value : Json) : Dict String Json :=
  if isNone value then attributes else attributes.set key value

/-- A value of another type than the expected outcome is missing here. -/
def expected {A : Type} : Option A → Except Raised A
  | some outcome => .ok outcome
  | none => .error .type

/-- A text can stand behind another text. -/
def textOf : Json → Except Raised String
  | .str text => .ok text
  | _ => .error .type

/-- A span under a valid context joins its trace. Any other span starts the new trace. -/
def startSpan (platform : Platform) (supply : Supply) (parent : Option SpanContext) (name : String)
    (attributes : Dict String Json) (scope : Scope E) : Opened E :=
  let under := parent.filter SpanContext.valid
  { context := ⟨(under.map SpanContext.traceId).getD supply.context.traceId, supply.context.spanId⟩
    parent := under.map SpanContext.spanId
    name := name
    attributes := attributes.filterMap platform.exported
    start := supply.now
    scope := scope }

def State.open (state : State E) (span : Opened E) (handles : List (Handle E)) : State E :=
  { state with opened := span :: state.opened, handles := state.handles ++ handles }

/-- This is `_open_step`. -/
def openStep (platform : Platform) (supply : Supply) (state : State E) (parent : SpanContext)
    (baseAttributes : Dict String Json) (node : Json) (outcome : Option StepOutcome) (resumedFrom : Json)
    (pause : E → Bool) : Except Raised (State E) := do
  let outcome ← expected outcome
  check node.truthy .value
  check (isNone resumedFrom || isText (some resumedFrom)) .value
  let attributes := setOptional (baseAttributes.set "cord.node.name" node) "cord.resumed_from" resumedFrom
  let text ← textOf node
  let span := startSpan platform supply (some parent) ("step:" ++ text)
    (attributes.set "cord.outcome" (.str outcome.value)) (.step pause)
  .ok (state.open span [.step span.context attributes pause baseAttributes])

def runAttributes (supply : Supply) (subject subjectType graphId runId causedByRunId cascadeDepth : Json) :
    Dict String Json :=
  let attributes := ((((Dict.empty.set "cord.graph.id" graphId).set "cord.run.id"
    (runId.orElse (.str supply.uuid))).set "cord.subject.id" subject).set "cord.subject.type" subjectType).set
    "cord.cascade.depth" cascadeDepth
  setOptional attributes "cord.caused_by.run_id" causedByRunId

/-- An integer that is not a boolean and not negative. -/
def isDepth : Json → Bool
  | .int number => 0 ≤ number
  | _ => false

def openRun (platform : Platform) (supply : Supply) (state : State E)
    (subject subjectType graphId runId causedByRunId cascadeDepth : Json) : Except Raised (State E) := do
  check (isText (some subject) && subjectType.truthy) .value
  check (isText (some graphId)) .value
  check (isNone runId || isText (some runId)) .value
  check (isNone causedByRunId || isText (some causedByRunId)) .value
  check (isDepth cascadeDepth) .value
  let attributes := runAttributes supply subject subjectType graphId runId causedByRunId cascadeDepth
  let span := startSpan platform supply none "run" (attributes.set "cord.semconv.version" (.str semconvVersion)) .run
  .ok (state.open span [.run span.context attributes true])

def continuationAttributes (continuation : RunContinuation) : Dict String Json :=
  (((Dict.empty.set "cord.graph.id" continuation.graphId).set "cord.run.id" continuation.runId).set
    "cord.subject.id" continuation.subject).set "cord.subject.type" continuation.subjectType

def resumeRun (platform : Platform) (state : State E) (continuation : RunContinuation) : Except Raised (State E) := do
  let traceId ← platform.int16 continuation.traceId
  let spanId ← platform.int16 continuation.runSpanId
  .ok { state with handles := state.handles ++ [.run ⟨traceId, spanId⟩ (continuationAttributes continuation) false] }

def openAttempt (platform : Platform) (supply : Supply) (state : State E) (parent : SpanContext)
    (stepAttributes : Dict String Json) (pause : E → Bool) (number tier : Json) (outcome : Option AttemptOutcome) :
    Except Raised (State E) := do
  let outcome ← expected outcome
  check (isPositive (some number)) .value
  check (isNone tier || isText (some tier)) .value
  let attributes := setOptional
    ((stepAttributes.set "cord.step.attempt" number).set "cord.outcome" (.str outcome.value)) "cord.tier" tier
  .ok (state.open (startSpan platform supply (some parent) "attempt" attributes (.attempt pause)) [])

/-- The end of a body closes its own span. -/
def closeSpan (supply : Supply) (state : State E) (spanId : Int) (ending : Ending E) : Except Raised (State E) :=
  match state.opened.find? (fun span => span.context.spanId = spanId), state.closed.get? spanId with
  | some span, none =>
      .ok { state with closed := state.closed.set spanId ⟨supply.now, span.scope.outcome ending⟩ }
  | _, _ => .error .attribute

/-- One call of the instrumentation, on an object that an earlier call has handed out. -/
def perform (platform : Platform) (supply : Supply) (state : State E) : Call E → Except Raised (State E)
  | .run subject subjectType graphId runId causedByRunId cascadeDepth =>
      openRun platform supply state subject subjectType graphId runId causedByRunId cascadeDepth
  | .resumeRun continuation => resumeRun platform state continuation
  | .step handle node outcome resumedFrom pause =>
      match state.handles[handle]? with
      | some (.run context attributes _) =>
          openStep platform supply state context attributes node outcome resumedFrom pause
      | _ => .error .attribute
  | .child handle node outcome resumedFrom pause =>
      match state.handles[handle]? with
      | some (.step context _ own base) =>
          openStep platform supply state context base node outcome resumedFrom (pause.getD own)
      | _ => .error .attribute
  | .attempt handle number tier outcome =>
      match state.handles[handle]? with
      | some (.step context attributes pause _) =>
          openAttempt platform supply state context attributes pause number tier outcome
      | _ => .error .attribute
  | .close spanId ending => closeSpan supply state spanId ending

/-- A call or a span has used the id. -/
def State.Mentions (state : State E) (spanId : Int) : Prop :=
  (∃ span ∈ state.opened, span.context.spanId = spanId) ∨ ∃ handle ∈ state.handles, handle.context.spanId = spanId

/-- The generated ids are valid and new. -/
structure Supply.Fresh (supply : Supply) (state : State E) : Prop where
  valid : supply.context.valid = true
  uuid : blank supply.uuid = false
  new : ¬ state.Mentions supply.context.spanId

/-- A state of the producer with the calls before it, each with the state that it met. -/
inductive Produced (platform : Platform) : List (State E × Call E) → State E → Prop
  | start : Produced platform [] .empty
  | call {past : List (State E × Call E)} {state next : State E} {supply : Supply} {call : Call E}
      (before : Produced platform past state) (fresh : supply.Fresh state)
      (done : perform platform supply state call = .ok next) : Produced platform ((state, call) :: past) next

/-- A span of the archive has the ids, the parent, the name, the attributes and the times of the ended span. -/
structure Preserves (span : Opened E) (closing : Closing) (exported : Span) : Prop where
  spanId : exported.spanId = hexText 16 span.context.spanId
  traceId : exported.traceId = hexText 32 span.context.traceId
  parent : match span.parent with
    | some above => exported.parentRef = .str (hexText 16 above)
    | none => exported.parentRef.truthy = false
  name : exported.name = some (.str span.name)
  attributes : exported.attributes = match closing.outcome with
    | some outcome => span.attributes.set "cord.outcome" (.str outcome)
    | none => span.attributes
  start : exported.startTimeUnixNano = span.start
  finish : exported.endTimeUnixNano = closing.time

/-- The archive holds the spans of the producer, each of them ended, and no others. -/
structure Exports (state : State E) (spans : SpanMap) : Prop where
  all : ∀ span ∈ state.opened, ∃ closing exported, state.closed.get? span.context.spanId = some closing ∧
    spans.holds exported ∧ Preserves span closing exported
  only : ∀ exported, spans.holds exported → ∃ span ∈ state.opened, ∃ closing,
    state.closed.get? span.context.spanId = some closing ∧ Preserves span closing exported

end

end Cordboard.Execution
