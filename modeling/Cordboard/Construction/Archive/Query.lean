import Cordboard.Construction.Json

namespace Cordboard.Archive
open Data

/-- The readers tell `ArchiveError` from every other exception of Python. -/
inductive Failure where
  | archive (reason : String)
  | type
  | key
  | attribute
  | value
  | unicode
  | unfinished
deriving DecidableEq

/-- A reader returns or raises. -/
abbrev Checked (A : Type) : Type := Except Failure A

def require (condition : Bool) (reason : String) : Checked Unit :=
  if condition then .ok () else .error (.archive reason)

/-- A normalized span keeps its other members as they came. -/
structure Span where
  spanId : String
  traceId : String
  parentSpanId : Option Json
  name : Option Json
  attributes : Dict String Json
  startTimeUnixNano : Nat
  endTimeUnixNano : Nat
  others : List (String × Json)

/-- The location names the file and the line where the span came first. -/
structure Entry where
  span : Span
  location : String

/-- The spans of an archive are indexed by their own identifiers. -/
structure SpanMap where
  entries : Dict String Entry
  keyed : ∀ key entry, entries.get? key = some entry → entry.span.spanId = key
  named : ∀ key ∈ entries.keys, key ≠ ""

def SpanMap.empty : SpanMap where
  entries := Dict.empty
  keyed _ _ found := by cases found
  named _ member := by cases member

/-- A new span comes under its own identifier. -/
def SpanMap.insert (spans : SpanMap) (entry : Entry) (named : entry.span.spanId ≠ "") : SpanMap where
  entries := spans.entries.set entry.span.spanId entry
  keyed key other found := by
    rw [Dict.get?_set] at found
    split at found
    · rename_i same
      rw [← Option.some.inj found, same]
    · exact spans.keyed key other found
  named key member := by
    rcases Dict.mem_keys_set.mp member with rfl | old
    · exact named
    · exact spans.named key old

/-- This is `spans.get`. A container cannot be a key, and only a text is the key of a span. -/
def SpanMap.get (spans : SpanMap) : Json → Checked (Option Entry)
  | .str key => .ok (spans.entries.get? key)
  | .arr _ => .error .type
  | .obj _ => .error .type
  | _ => .ok none

/-- This is `span.get("parentSpanId")`. -/
def Span.parentRef (span : Span) : Json := span.parentSpanId.getD .null

inductive Role where
  | run
  | step
  | attempt
deriving DecidableEq

def Role.text : Role → String
  | .run => "run"
  | .step => "step"
  | .attempt => "attempt"

def semconvVersion : String := "0.4.0"

def supportedRunVersions : List String := ["0.2.0", "0.3.0", semconvVersion]

def identity : List String := ["cord.graph.id", "cord.run.id", "cord.subject.id", "cord.subject.type"]

inductive StepOutcome where
  | passed
  | repaired
  | failed
  | awaitingApproval
  | halted
deriving DecidableEq

def StepOutcome.value : StepOutcome → String
  | .passed => "passed"
  | .repaired => "repaired"
  | .failed => "failed"
  | .awaitingApproval => "awaiting_approval"
  | .halted => "halted"

inductive AttemptOutcome where
  | passed
  | failed
  | escalated
deriving DecidableEq

def AttemptOutcome.value : AttemptOutcome → String
  | .passed => "passed"
  | .failed => "failed"
  | .escalated => "escalated"

def stepOutcomes : List StepOutcome := [.passed, .repaired, .failed, .awaitingApproval, .halted]

def attemptOutcomes : List AttemptOutcome := [.passed, .failed, .escalated]

/-- The value is a text with something besides white space. -/
def isText : Option Json → Bool
  | some (.str text) => !blank text
  | _ => false

/-- The value is one of these texts. -/
def isOneOf (value : Option Json) (texts : List String) : Bool :=
  match value with
  | some (.str text) => texts.contains text
  | _ => false

def Span.has (span : Span) (name : String) : Bool := (span.attributes.get? name).isSome

/-- An ordinary span has no role. -/
def role (span : Span) : Checked (Option Role) :=
  match span.name.getD (.str "") with
  | .str name =>
      if name = "attempt" ∨ span.has "cord.step.attempt" then .ok (some .attempt)
      else if "step:".toList.isPrefixOf name.toList ∨ span.has "cord.node.name" then .ok (some .step)
      else if name = "run" ∨ span.has "cord.semconv.version" then .ok (some .run)
      else do
        require (!span.has "cord.outcome") "unclassified Cordboard outcome span"
        .ok none
  | _ => .error (.archive "invalid span name")

/-- Two spans have equal identity values. A missing value counts as `None`. -/
def sameIdentity (first second : Span) : Bool :=
  identity.all fun key => ((first.attributes.get? key).getD .null).pyEq ((second.attributes.get? key).getD .null)

def parent (spans : SpanMap) (span : Span) (expected : Role) : Checked Span := do
  match ← spans.get span.parentRef with
  | none => .error (.archive (expected.text ++ " parent is missing; supply complete Run trees"))
  | some entry =>
      let kind ← role entry.span
      require (kind = some expected && entry.span.traceId = span.traceId)
        ("invalid " ++ expected.text ++ " parent hierarchy")
      require (sameIdentity span entry.span) "parent identity mismatch"
      .ok entry.span

/-- The walk to the Run of a Step remembers the spans that it has seen. -/
def runRootWithin (spans : SpanMap) : Nat → List String → Span → Checked Span
  | 0, _, _ => .error .unfinished
  | fuel + 1, seen, current => do
      let kind ← role current
      if kind = some .run then .ok current
      else do
        require (!seen.contains current.spanId) "cyclical span parentage"
        match ← spans.get current.parentRef with
        | none => .error (.archive "run ancestor is missing; supply complete Run trees")
        | some entry =>
            let above ← role entry.span
            require (above = some .run || above = some .step) "invalid step parent hierarchy"
            runRootWithin spans fuel (current.spanId :: seen) entry.span

/-- A walk that sees each span once ends within this bound. -/
def runRoot (spans : SpanMap) (span : Span) : Checked Span :=
  runRootWithin spans (spans.entries.keys.length + 2) [] span

def version (span : Span) : Option Json := span.attributes.get? "cord.semconv.version"

def windowNs : Int := 56 * 86400 * 1000000000

/-- This is the check of one Step in `query_spans`. -/
def queryStep (spans : SpanMap) (span : Span) : Checked Unit := do
  require (isOneOf (span.attributes.get? "cord.outcome") (stepOutcomes.map StepOutcome.value)) "invalid Step outcome"
  match ← spans.get span.parentRef with
  | none => .error (.archive "step parent is missing; supply complete Run trees")
  | some entry =>
      match ← role entry.span with
      | some .run => do
          let _ ← parent spans span .run
          .ok ()
      | some .step => do
          let above ← parent spans span .step
          let root ← runRoot spans above
          require (isOneOf (version root) [semconvVersion])
            "nested Step under Step requires current cord.semconv.version"
      | _ => .error (.archive "invalid step parent hierarchy")

/-- An integer attribute is not a boolean. -/
def isPositive : Option Json → Bool
  | some (.int number) => 0 < number
  | _ => false

/-- The Graph and the Node of an escalation. -/
def escalationKey (span : Span) : Option (String × String) :=
  match span.attributes.get? "cord.graph.id", span.attributes.get? "cord.node.name" with
  | some (.str graph), some (.str node) => some (graph, node)
  | _, _ => none

/-- This is the check of one Attempt in `query_spans`. An escalation inside the window counts. -/
def queryAttempt (spans : SpanMap) (reference : Int) (span : Span) : Checked (Option (String × String)) := do
  require (isPositive (span.attributes.get? "cord.step.attempt")) "Attempt requires a positive attempt number"
  require (isOneOf (span.attributes.get? "cord.outcome") (attemptOutcomes.map AttemptOutcome.value))
    "invalid Attempt outcome"
  let step ← parent spans span .step
  let root ← runRoot spans step
  if isOneOf (version root) ["0.2.0"] || span.has "cord.tier" then
    require (isText (span.attributes.get? "cord.tier")) "missing or invalid Attempt Tier"
  require (((span.attributes.get? "cord.node.name").getD .null).pyEq
    ((step.attributes.get? "cord.node.name").getD .null)) "parent Node identity mismatch"
  let escalated := isOneOf (span.attributes.get? "cord.outcome") [AttemptOutcome.escalated.value]
  .ok (if escalated ∧ reference - windowNs < span.endTimeUnixNano ∧ (span.endTimeUnixNano : Int) ≤ reference then
    escalationKey span else none)

/-- This is the body of the loop of `query_spans`. -/
def querySpan (spans : SpanMap) (reference : Int) (span : Span) : Checked (Option (String × String)) := do
  match ← role span with
  | none => .ok none
  | some kind => do
      require (identity.all fun key => isText (span.attributes.get? key))
        "missing explicit Graph/Run/Subject identity; legacy archives require re-emission"
      match kind with
      | .run => do
          require (!span.parentRef.truthy) "Run must be a root span"
          require (isOneOf (version span) supportedRunVersions)
            "unsupported semantic convention version; re-emit with current instrumentation"
          .ok none
      | .step => do
          require (isText (span.attributes.get? "cord.node.name")) "missing Node identity"
          queryStep spans span
          .ok none
      | .attempt => do
          require (isText (span.attributes.get? "cord.node.name")) "missing Node identity"
          queryAttempt spans reference span

/-- An `ArchiveError` is raised again with the location of its record. -/
def at_ {A : Type} (location : String) : Checked A → Checked A
  | .error (.archive reason) => .error (.archive (location ++ ": " ++ reason))
  | outcome => outcome

/-- A counter adds one to its key. -/
def count (counts : Dict (String × String) Nat) (key : String × String) : Dict (String × String) Nat :=
  counts.set key ((counts.get? key).getD 0 + 1)

/-- The loop checks the spans in the order of the archive and counts the escalations. -/
def tally (spans : SpanMap) (reference : Int) :
    List Entry → Dict (String × String) Nat → Checked (Dict (String × String) Nat)
  | [], counts => .ok counts
  | entry :: rest, counts => do
      match ← at_ entry.location (querySpan spans reference entry.span) with
      | some key => tally spans reference rest (count counts key)
      | none => tally spans reference rest counts

structure Row where
  graph : String
  node : String
  count : Nat
deriving DecidableEq

/-- The larger count comes first, then the smaller Graph, then the smaller Node. -/
def Row.before (first second : Row) : Bool :=
  first.count > second.count ∨ (first.count = second.count ∧
    (first.graph < second.graph ∨ (first.graph = second.graph ∧ first.node ≤ second.node)))

/-- The values of the map stand in the order of the archive. -/
def SpanMap.values (spans : SpanMap) : List Entry := spans.entries.items.map Prod.snd

/-- The span is in the map. -/
def SpanMap.holds (spans : SpanMap) (span : Span) : Prop := ∃ entry ∈ spans.values, entry.span = span

def querySpans (spans : SpanMap) (reference : Int) (top : Int) : Checked (List Row) := do
  require (0 < top) "top must be a positive integer"
  let counts ← tally spans reference spans.values Dict.empty
  let rows := counts.items.map fun item => (⟨item.1.1, item.1.2, item.2⟩ : Row)
  .ok ((rows.mergeSort Row.before).take top.toNat)

end Cordboard.Archive
