import Cordboard.Construction.Archive.Query
import Cordboard.Construction.ApprovalInbox
import Mathlib.Algebra.Ring.Nat

namespace Cordboard.Viewer
open Data Archive

structure AttemptRecord where
  number : Json
  tier : Json
  outcome : Json
  startNs : Nat
  endNs : Nat

/-- A Step holds the Steps of a declared call of a child Graph. -/
structure StepRecord where
  spanId : String
  node : Json
  outcome : Json
  startNs : Nat
  endNs : Nat
  resumedFrom : Json
  repeatedExecution : Bool
  attempts : List AttemptRecord
  childSteps : List StepRecord
  approvalWaitNs : Option Nat
  awaitingResume : Bool

structure RunRecord where
  graphId : String
  runId : String
  subjectType : Json
  subjectId : Json
  startNs : Nat
  endNs : Nat
  steps : List StepRecord
  approvalWaitNs : Nat
  executionNs : Nat
  timelineIncomplete : Bool

/-- The loops refer to the Steps of a Run by their span IDs. -/
structure RunDraft where
  graphId : String
  runId : String
  subjectType : Json
  subjectId : Json
  startNs : Nat
  endNs : Nat
  steps : List String

structure StepDraft where
  node : Json
  outcome : Json
  startNs : Nat
  endNs : Nat
  resumedFrom : Json
  attempts : List AttemptRecord
  childSteps : List String

/-- These tables grow while the loop visits the spans. -/
structure Drafts where
  runs : Dict String RunDraft
  steps : Dict String StepDraft

def Drafts.empty : Drafts := ⟨Dict.empty, Dict.empty⟩

/-- This is `attributes[name]`. -/
def member (span : Span) (name : String) : Checked Json :=
  match span.attributes.get? name with
  | some value => .ok value
  | none => .error .key

/-- The checks of the archive leave only texts under these names. -/
def textAttribute (span : Span) (name : String) : Checked String := do
  match ← member span name with
  | .str text => .ok text
  | _ => .error .type

def ensureRun (drafts : Drafts) (span : Span) : Checked Drafts :=
  if (drafts.runs.get? span.spanId).isSome then .ok drafts
  else do
    let graphId ← textAttribute span "cord.graph.id"
    let runId ← textAttribute span "cord.run.id"
    let subjectType ← member span "cord.subject.type"
    let subjectId ← member span "cord.subject.id"
    let draft : RunDraft :=
      ⟨graphId, runId, subjectType, subjectId, span.startTimeUnixNano, span.endTimeUnixNano, []⟩
    .ok { drafts with runs := drafts.runs.set span.spanId draft }

/-- The Step is appended to the list of its Run. -/
def Drafts.attachToRun (drafts : Drafts) (run step : String) : Drafts :=
  match drafts.runs.get? run with
  | some draft => { drafts with runs := drafts.runs.set run { draft with steps := draft.steps ++ [step] } }
  | none => drafts

/-- The Step is appended to the list of the enclosing Step. -/
def Drafts.attachToStep (drafts : Drafts) (above step : String) : Drafts :=
  match drafts.steps.get? above with
  | some draft => { drafts with steps := drafts.steps.set above { draft with childSteps := draft.childSteps ++ [step] } }
  | none => drafts

/-- The Attempt is appended to the list of its Step. -/
def Drafts.attachAttempt (drafts : Drafts) (step : String) (attempt : AttemptRecord) : Drafts :=
  match drafts.steps.get? step with
  | some draft => { drafts with steps := drafts.steps.set step { draft with attempts := draft.attempts ++ [attempt] } }
  | none => drafts

/-- This is `spans[key][0]`. -/
def spanAt (spans : SpanMap) (key : Json) : Checked Span := do
  match ← spans.get key with
  | some entry => .ok entry.span
  | none => .error .key

/-- A new Step is recorded before the Step or the Run above it. -/
def ensureStep (spans : SpanMap) : Nat → Drafts → Span → Checked Drafts
  | 0, _, _ => .error .unfinished
  | fuel + 1, drafts, span =>
      if (drafts.steps.get? span.spanId).isSome then .ok drafts
      else do
        let node ← member span "cord.node.name"
        let outcome ← member span "cord.outcome"
        let draft : StepDraft := ⟨node, outcome, span.startTimeUnixNano, span.endTimeUnixNano,
          (span.attributes.get? "cord.resumed_from").getD .null, [], []⟩
        let recorded := { drafts with steps := drafts.steps.set span.spanId draft }
        let above ← spanAt spans span.parentRef
        match ← role above with
        | some .run => do
            let ensured ← ensureRun recorded above
            .ok (ensured.attachToRun above.spanId span.spanId)
        | _ => do
            let ensured ← ensureStep spans fuel recorded above
            .ok (ensured.attachToStep above.spanId span.spanId)

/-- A chain of parents that sees each span once ends within this bound. -/
def depthBound (spans : SpanMap) : Nat := spans.entries.keys.length + 1

def visitSpan (spans : SpanMap) (drafts : Drafts) (span : Span) : Checked Drafts := do
  match ← role span with
  | some .run => ensureRun drafts span
  | some .step => ensureStep spans (depthBound spans) drafts span
  | some .attempt => do
      let step ← parent spans span .step
      let ensured ← ensureStep spans (depthBound spans) drafts step
      let number ← member span "cord.step.attempt"
      let outcome ← member span "cord.outcome"
      .ok (ensured.attachAttempt step.spanId
        ⟨number, (span.attributes.get? "cord.tier").getD .null, outcome, span.startTimeUnixNano,
          span.endTimeUnixNano⟩)
  | none => .ok drafts

/-- The loop visits the spans in the order of the archive. -/
def visitSpans (spans : SpanMap) : List Entry → Drafts → Checked Drafts
  | [], drafts => .ok drafts
  | entry :: rest, drafts => do
      let visited ← at_ entry.location (visitSpan spans drafts entry.span)
      visitSpans spans rest visited

/-- A stable sort by the start. -/
def byStart {A : Type} (start : A → Nat) (items : List A) : List A :=
  items.mergeSort fun first second => start first ≤ start second

/-- A value that names another Step is not `None`. -/
def isNone : Json → Bool
  | .null => true
  | _ => false

/-- The Steps that resume the same Step, in the order of the table. -/
def resuming (steps : Dict String StepDraft) (original : Json) : List (String × StepDraft) :=
  steps.items.filter fun item => !isNone item.2.resumedFrom && item.2.resumedFrom.pyEq original

/-- Every Step of a group except the first one by start repeats the execution. -/
def repeated (steps : Dict String StepDraft) (step : String) (draft : StepDraft) : Bool :=
  if isNone draft.resumedFrom then false
  else ((byStart (fun item => item.2.startNs) (resuming steps draft.resumedFrom)).drop 1).any fun item => item.1 = step

/-- The gap before a resumed Step, when the original is present. -/
def approvalWait (steps : Dict String StepDraft) (draft : StepDraft) : Option Nat :=
  match draft.resumedFrom with
  | .str original => (steps.get? original).map fun paused => draft.startNs - paused.endNs
  | _ => none

def awaitingResume (steps : Dict String StepDraft) (step : String) (draft : StepDraft) : Bool :=
  draft.outcome.pyEq (.str "awaiting_approval") && (resuming steps (.str step)).isEmpty

/-- The records of a list of Steps, sorted by start at each level. -/
def assemble (steps : Dict String StepDraft) : Nat → List String → List StepRecord
  | 0, _ => []
  | fuel + 1, keys =>
      byStart StepRecord.startNs (keys.filterMap fun step => (steps.get? step).map fun draft =>
        { spanId := step, node := draft.node, outcome := draft.outcome, startNs := draft.startNs,
          endNs := draft.endNs, resumedFrom := draft.resumedFrom,
          repeatedExecution := repeated steps step draft,
          attempts := byStart AttemptRecord.startNs draft.attempts,
          childSteps := assemble steps fuel draft.childSteps,
          approvalWaitNs := approvalWait steps draft,
          awaitingResume := awaitingResume steps step draft })

mutual

/-- A Step and every Step below it. -/
def StepRecord.flatten : StepRecord → List StepRecord
  | step@⟨_, _, _, _, _, _, _, _, childSteps, _, _⟩ => step :: flattenAll childSteps

/-- Every Step at every depth. -/
def flattenAll : List StepRecord → List StepRecord
  | [] => []
  | step :: rest => step.flatten ++ flattenAll rest

end

/-- A resumed Step without its original, or an open wait, leaves a gap. -/
def StepRecord.incomplete (step : StepRecord) : Bool :=
  (!isNone step.resumedFrom && step.approvalWaitNs.isNone) || step.awaitingResume

/-- The Run ends with the latest span in it, and the known waits are no execution. -/
def finishRun (steps : Dict String StepDraft) (draft : RunDraft) : RunRecord :=
  let nested := assemble steps (steps.keys.length + 1) draft.steps
  let all := flattenAll nested
  let ends := all.map StepRecord.endNs ++ all.flatMap fun step => step.attempts.map AttemptRecord.endNs
  let endNs := ends.foldl max draft.endNs
  let waited := (all.filterMap StepRecord.approvalWaitNs).sum
  { graphId := draft.graphId, runId := draft.runId, subjectType := draft.subjectType, subjectId := draft.subjectId,
    startNs := draft.startNs, endNs := endNs, steps := nested, approvalWaitNs := waited,
    executionNs := endNs - draft.startNs - waited, timelineIncomplete := all.any StepRecord.incomplete }

/-- The groups of resumed Steps need values that can be keys. -/
def checkResumed (steps : Dict String StepDraft) : Checked Unit :=
  if steps.items.all fun item => item.2.resumedFrom.hashable then .ok () else .error .type

/-- An archive without spans is not validated. -/
def buildExecutionTree (spans : SpanMap) : Checked (List RunRecord) := do
  if !spans.entries.items.isEmpty then
    let _ ← querySpans spans 0 1
  let drafts ← visitSpans spans spans.values Drafts.empty
  checkResumed drafts.steps
  .ok (byStart RunRecord.startNs (drafts.runs.items.map fun item => finishRun drafts.steps item.2))

end Cordboard.Viewer
