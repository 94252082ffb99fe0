import Cordboard.Construction.Json
import Cordboard.Data.Percent

namespace Cordboard.Telemetry
open Data

/-- A set field holds a message, several messages, a text, bytes, or a number. -/
inductive Field where
  | message (fields : List (String × Field))
  | messages (items : List (List (String × Field)))
  | text (value : String)
  | texts (values : List String)
  | bytes (value : List UInt8)
  | byteItems (values : List (List UInt8))
  | flag (value : Bool)
  | number (value : ℚ)

/-- A message lists the fields that are set. -/
abbrev Message : Type := List (String × Field)

/-- An attribute whose key is empty does not set the field. -/
structure KeyValue where
  key : Option String
  fields : Message

structure SpanMessage where
  attributes : List KeyValue
  fields : Message

structure ScopeSpans where
  spans : List SpanMessage
  fields : Message

structure ResourceSpans where
  scopeSpans : List ScopeSpans
  fields : Message

structure Request where
  resourceSpans : List ResourceSpans

structure Finding where
  action : String
deriving DecidableEq

/-- The result of a scan carries the findings and the redacted text. -/
structure Scan where
  findings : List Finding
  text : String

/-- The public redactor returns a scan or raises. -/
structure Redactor where
  scanAndRedact : String → Option Scan

/-- A block finding and every other failure suppress the span. -/
inductive Suppressed where
  | blocked
  | failed
deriving DecidableEq

def text (redactor : Redactor) (value : String) : Except Suppressed String :=
  match redactor.scanAndRedact value with
  | none => .error .failed
  | some result => if result.findings.any fun finding => finding.action = "block" then .error .blocked else .ok result.text

/-- This is `bytes.decode("utf-8")`. -/
def decodeBytes (bytes : List UInt8) : Except Suppressed String :=
  match String.fromUTF8? ⟨bytes.toArray⟩ with
  | some value => .ok value
  | none => .error .failed

mutual

/-- Opaque identifiers stay bytes. A repeated text is no text for the redactor. -/
def sanitizeField (redactor : Redactor) (name : String) : Field → Except Suppressed Field
  | .message fields => do
      let fields ← sanitize redactor fields
      .ok (.message fields)
  | .messages items => do
      let items ← sanitizeItems redactor items
      .ok (.messages items)
  | .text value => do
      let value ← text redactor value
      .ok (.text value)
  | .texts _ => .error .failed
  | .bytes value =>
      if name = "bytes_value" then do
        let decoded ← decodeBytes value
        let value ← text redactor decoded
        .ok (.bytes (Percent.utf8 value))
      else .ok (.bytes value)
  | .byteItems values => if name = "bytes_value" then .error .failed else .ok (.byteItems values)
  | .flag value => .ok (.flag value)
  | .number value => .ok (.number value)

/-- The walk visits every set field of a message. -/
def sanitize (redactor : Redactor) : List (String × Field) → Except Suppressed (List (String × Field))
  | [] => .ok []
  | (name, field) :: rest => do
      let field ← sanitizeField redactor name field
      let rest ← sanitize redactor rest
      .ok ((name, field) :: rest)

def sanitizeItems (redactor : Redactor) :
    List (List (String × Field)) → Except Suppressed (List (List (String × Field)))
  | [] => .ok []
  | item :: rest => do
      let item ← sanitize redactor item
      let rest ← sanitizeItems redactor rest
      .ok (item :: rest)

end

section
variable (redactor : Redactor)

def sanitizeKeyValue (attribute_ : KeyValue) : Except Suppressed KeyValue := do
  let key ← attribute_.key.mapM (text redactor)
  let fields ← sanitize redactor attribute_.fields
  .ok ⟨key, fields⟩

def sanitizeSpan (span : SpanMessage) : Except Suppressed SpanMessage := do
  let attributes ← span.attributes.mapM (sanitizeKeyValue redactor)
  let fields ← sanitize redactor span.fields
  .ok ⟨attributes, fields⟩

def sanitizeScope (scope : ScopeSpans) : Except Suppressed ScopeSpans := do
  let spans ← scope.spans.mapM (sanitizeSpan redactor)
  let fields ← sanitize redactor scope.fields
  .ok ⟨spans, fields⟩

def sanitizeResource (resource : ResourceSpans) : Except Suppressed ResourceSpans := do
  let scopeSpans ← resource.scopeSpans.mapM (sanitizeScope redactor)
  let fields ← sanitize redactor resource.fields
  .ok ⟨scopeSpans, fields⟩

end

def stampKey : String := "cord.redacted"

/-- The loop visits the attributes from the last one down and deletes each stamp in place. -/
def deleteStamps : Nat → List KeyValue → List KeyValue
  | 0, attributes => attributes
  | i + 1, attributes =>
      match attributes[i]? with
      | some attribute_ => deleteStamps i (if attribute_.key = some stampKey then attributes.eraseIdx i else attributes)
      | none => deleteStamps i attributes

def withoutStamps (span : SpanMessage) : SpanMessage :=
  { span with attributes := deleteStamps span.attributes.length span.attributes }

/-- The stamp is the value true. -/
def stamp : KeyValue := ⟨some stampKey, [("value", .message [("bool_value", .flag true)])]⟩

def SpanMessage.addStamp (span : SpanMessage) : SpanMessage := { span with attributes := span.attributes ++ [stamp] }

/-- The copies of the resource and of the scope hold a single span. -/
def candidate (resource : ResourceSpans) (scope : ScopeSpans) (span : SpanMessage) : ResourceSpans :=
  ⟨[⟨[withoutStamps span], scope.fields⟩], resource.fields⟩

/-- The stamp goes to the copied span. -/
def addStamps (resource : ResourceSpans) : ResourceSpans :=
  { resource with scopeSpans := resource.scopeSpans.map fun scope =>
    { scope with spans := scope.spans.map SpanMessage.addStamp } }

def redactSpan (redactor : Redactor) (resource : ResourceSpans) (scope : ScopeSpans) (span : SpanMessage) :
    Except Suppressed ResourceSpans := do
  let copied ← sanitizeResource redactor (candidate resource scope span)
  .ok (addStamps copied)

/-- A suppressed span is skipped. -/
def redactSpans (redactor : Redactor) (resource : ResourceSpans) (scope : ScopeSpans) :
    List SpanMessage → List ResourceSpans → List ResourceSpans
  | [], accepted => accepted
  | span :: rest, accepted =>
      match redactSpan redactor resource scope span with
      | .ok envelope => redactSpans redactor resource scope rest (accepted ++ [envelope])
      | .error _ => redactSpans redactor resource scope rest accepted

def redactScopes (redactor : Redactor) (resource : ResourceSpans) :
    List ScopeSpans → List ResourceSpans → List ResourceSpans
  | [], accepted => accepted
  | scope :: rest, accepted => redactScopes redactor resource rest (redactSpans redactor resource scope scope.spans accepted)

def redactResources (redactor : Redactor) : List ResourceSpans → List ResourceSpans → List ResourceSpans
  | [], accepted => accepted
  | resource :: rest, accepted =>
      redactResources redactor rest (redactScopes redactor resource resource.scopeSpans accepted)

def redactRequest (redactor : Redactor) (request : Request) : Request :=
  ⟨redactResources redactor request.resourceSpans []⟩

end Cordboard.Telemetry
