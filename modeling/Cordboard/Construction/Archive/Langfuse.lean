import Cordboard.Construction.Archive.Query

namespace Cordboard.Archive
open Data

/-- The attribute belongs to the archive contract. -/
def isCord (key : String) : Bool := "cord.".toList.isPrefixOf key.toList

/-- The compared part of a span is its identity, its times, and its attributes of the contract. -/
def projection (span : Span) : Json :=
  .obj [("spanId", (Json.str span.spanId).orElse .null), ("traceId", (Json.str span.traceId).orElse .null),
    ("parentSpanId", span.parentRef.orElse .null), ("name", (span.name.getD .null).orElse .null),
    ("startTimeUnixNano", (Json.int span.startTimeUnixNano).orElse .null),
    ("endTimeUnixNano", (Json.int span.endTimeUnixNano).orElse .null),
    ("attributes", .obj (span.attributes.items.filter fun item => isCord item.1))]

/-- The session of the trace is the Subject of the span, when the span names one. -/
def sameSubject (span : Span) (subjects : Dict String String) : Bool :=
  match (span.attributes.get? "cord.subject.id").getD .null with
  | .null => true
  | value => (subjects.get? span.traceId).any fun subject => (Json.str subject).pyEq value

/-- Both sides have the same identifiers. -/
def sameIds (expected actual : SpanMap) : Bool :=
  (expected.entries.keys.all fun key => (actual.entries.get? key).isSome) &&
    actual.entries.keys.all fun key => (expected.entries.get? key).isSome

/-- This is the field by field match of `compare`. -/
def sameFields (expected actual : SpanMap) (subjects : Dict String String) : Bool :=
  sameIds expected actual && expected.entries.items.all fun item =>
    (actual.entries.get? item.1).any fun other =>
      (projection item.2.span).pyEq (projection other.span) && sameSubject item.2.span subjects

inductive Status where
  | matched
  | mismatch
deriving DecidableEq

/-- The rows of the archive stand beside the rows of the public observations. -/
structure Comparison where
  status : Status
  archive : List Row
  langfuse : Option (List Row)

/-- This is the end of `compare` when each trace has arrived. -/
def compareSettled (expected actual : SpanMap) (subjects : Dict String String) (allExpected : List Row)
    (reference top : Int) : Checked Comparison :=
  match querySpans actual reference actual.entries.keys.length with
  | .error (.archive _) => .ok ⟨.mismatch, allExpected.take top.toNat, none⟩
  | .error failure => .error failure
  | .ok rows =>
      .ok ⟨if sameFields expected actual subjects && rows == allExpected then .matched else .mismatch,
        allExpected.take top.toNat, some (rows.take top.toNat)⟩

end Cordboard.Archive
