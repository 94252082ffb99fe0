import Cordboard.Construction.Archive.Query
import Mathlib.Algebra.Group.Int.Defs

namespace Cordboard.Archive
open Data

/-- The zeros of the decimal digits of Unicode 15. Each has its nine other digits behind it. -/
def decimalZeros : List Nat := [48, 1632, 1776, 1984, 2406, 2534, 2662, 2790, 2918, 3046, 3174, 3302, 3430, 3558, 3664,
  3792, 3872, 4160, 4240, 6112, 6160, 6470, 6608, 6784, 6800, 6992, 7088, 7232, 7248, 42528, 43216, 43264, 43472, 43504,
  43600, 44016, 65296, 66720, 68912, 69734, 69872, 69942, 70096, 70384, 70736, 70864, 71248, 71360, 71472, 71904, 72016,
  72784, 73040, 73120, 73552, 92768, 92864, 93008, 120782, 120792, 120802, 120812, 120822, 123200, 123632, 124144,
  125264, 130032]

def decimalDigit (letter : Char) : Option Nat :=
  (decimalZeros.find? fun zero => zero ≤ letter.toNat ∧ letter.toNat ≤ zero + 9).map fun zero => letter.toNat - zero

/-- This is `int(text)` on a text for which `isdecimal` holds. Longer texts than this raise `ValueError`. -/
def decimalValue (text : String) : Checked (Option Nat) :=
  match text.toList.mapM decimalDigit with
  | some [] => .ok none
  | none => .ok none
  | some digits =>
      if 4300 < digits.length then .error .value
      else .ok (some (digits.foldl (fun total digit => 10 * total + digit) 0))

/-- The lookup `value[key]` of a text key. -/
def member (value : Json) (key : String) : Checked Json :=
  match value with
  | .obj members => match members.lookup key with
      | some found => .ok found
      | none => .error .key
  | _ => .error .type

/-- The items that a loop over the value takes. -/
def iterate : Json → Checked (List Json)
  | .arr items => .ok items
  | .obj members => .ok (members.map fun item => .str item.1)
  | .str text => .ok (text.toList.map fun letter => .str (String.singleton letter))
  | _ => .error .type

/-- The only member of an attribute value. -/
def onlyMember : Json → Checked (String × Json)
  | .obj [item] => .ok item
  | .obj _ => .error (.archive "duplicate or malformed attribute")
  | .arr [_] => .error .attribute
  | .arr _ => .error (.archive "duplicate or malformed attribute")
  | .str text => if text.length = 1 then .error .attribute else .error (.archive "duplicate or malformed attribute")
  | _ => .error .type

def isHexDigit (letter : Char) : Bool :=
  ('0' ≤ letter ∧ letter ≤ '9') ∨ ('a' ≤ letter ∧ letter ≤ 'f') ∨ ('A' ≤ letter ∧ letter ≤ 'F')

/-- A text of hexadecimal digits that are not all zero. -/
def isIdentifier (length : Nat) (text : String) : Bool :=
  text.toList.length = length ∧ text.toList.all isHexDigit ∧ text.toList.any (· ≠ '0')

/-- An identifier in lower case. It is never empty. -/
structure Identifier where
  text : String
  named : text ≠ ""

def lowerCase (text : String) : String := String.ofList (text.toList.map Char.toLower)

theorem lowerCase_named {length : Nat} {text : String} (valid : isIdentifier length text = true) :
    lowerCase text ≠ "" := by
  intro same
  have letters : text.toList.map Char.toLower = [] := String.ofList_injective same
  have empty : text.toList = [] := List.map_eq_nil_iff.mp letters
  simp [isIdentifier, empty] at valid

def identifier (value : Json) (length : Nat) : Checked Identifier :=
  match value with
  | .str text =>
      if valid : isIdentifier length text = true then .ok ⟨lowerCase text, lowerCase_named valid⟩
      else .error (.archive "invalid OTLP trace/span identifier")
  | _ => .error (.archive "invalid OTLP trace/span identifier")

/-- The integer of an `intValue`. -/
def integerAttribute : Json → Checked Json
  | .int number => .ok (.int number)
  | .str text => do
      match ← decimalValue text with
      | some number => .ok (.int number)
      | none => .error (.archive "invalid integer attribute")
  | _ => .error (.archive "invalid integer attribute")

def attributeValue (kind : String) (item : Json) : Checked Json :=
  if kind = "intValue" then integerAttribute item
  else if kind = "stringValue" then match item with
    | .str text => .ok (.str text)
    | _ => .error (.archive "invalid string attribute")
  else if kind = "boolValue" then match item with
    | .bool value => .ok (.bool value)
    | _ => .error (.archive "invalid boolean attribute")
  else .ok item

/-- One turn of the loop of `attributes`. An attribute key of OTLP is a text, and the model has no other keys. -/
def readAttribute (result : Dict String Json) (attr : Json) : Checked (Dict String Json) := do
  let key ← member attr "key"
  let value ← member attr "value"
  match key with
  | .str key =>
      require (result.get? key).isNone "duplicate or malformed attribute"
      let (kind, item) ← onlyMember value
      let item ← attributeValue kind item
      .ok (result.set key item)
  | _ => .error .type

def attributes (span : List (String × Json)) : Checked (Dict String Json) := do
  let attrs ← iterate ((span.lookup "attributes").getD (.arr []))
  attrs.foldlM readAttribute Dict.empty

def timestamp (value : Json) : Checked Nat := do
  let number ← match value with
    | .int number => (.ok number : Checked Int)
    | .str text => do
        match ← decimalValue text with
        | some number => .ok (number : Int)
        | none => .error (.archive "invalid span timestamp")
    | _ => .error (.archive "invalid span timestamp")
  require (0 < number ∧ number < 2 ^ 64) "invalid span timestamp"
  .ok number.toNat

/-- The reader gives these members a form of their own. -/
def ownMembers : List String :=
  ["spanId", "traceId", "parentSpanId", "name", "attributes", "startTimeUnixNano", "endTimeUnixNano"]

/-- A span with an identifier. -/
structure NamedSpan where
  span : Span
  named : span.spanId ≠ ""

/-- The reader puts a parent identifier into lower case when there is one. -/
def parentReference (span : List (String × Json)) : Checked (Option Json) :=
  match span.lookup "parentSpanId" with
  | none => .ok none
  | some value =>
      if value.truthy then do
        let above ← identifier value 16
        .ok (some (.str above.text))
      else .ok (some value)

/-- This is the normalization of one span in `read_spans`. -/
def normalize (value : Json) : Checked NamedSpan :=
  match value with
  | .obj members => do
      let sid ← identifier (← member value "spanId") 16
      let traceId ← identifier (← member value "traceId") 32
      let parentSpanId ← parentReference members
      let attrs ← attributes members
      let start ← timestamp (← member value "startTimeUnixNano")
      let finish ← timestamp (← member value "endTimeUnixNano")
      require (start ≤ finish) "span ends before it starts"
      .ok ⟨⟨sid.text, traceId.text, parentSpanId, members.lookup "name", attrs, start, finish,
        members.filter fun item => !ownMembers.contains item.1⟩, sid.named⟩
  | _ => .error .type

/-- This is the `==` operator on two values that may be missing. -/
def optionEq : Option Json → Option Json → Bool
  | none, none => true
  | some first, some second => first.pyEq second
  | _, _ => false

/-- This is the `==` operator on two normalized spans. -/
def Span.pyEq (first second : Span) : Bool :=
  first.spanId = second.spanId ∧ first.traceId = second.traceId ∧ optionEq first.parentSpanId second.parentSpanId ∧
  optionEq first.name second.name ∧ (Json.obj first.attributes.items).pyEq (.obj second.attributes.items) ∧
  first.startTimeUnixNano = second.startTimeUnixNano ∧ first.endTimeUnixNano = second.endTimeUnixNano ∧
  (Json.obj first.others).pyEq (.obj second.others)

/-- A span comes in once. A later span with its identifier has to be equal. -/
def index (location : String) (spans : SpanMap) (new : NamedSpan) : Checked SpanMap :=
  match spans.entries.get? new.span.spanId with
  | some entry => do
      require (entry.span.pyEq new.span) "conflicting duplicate span_id"
      .ok spans
  | none => .ok (spans.insert ⟨new.span, location⟩ new.named)

def readSpan (location : String) (spans : SpanMap) (value : Json) : Checked SpanMap := do
  index location spans (← normalize value)

def readScope (location : String) (spans : SpanMap) (scope : Json) : Checked SpanMap := do
  let values ← iterate (← member scope "spans")
  values.foldlM (readSpan location) spans

def readResource (location : String) (spans : SpanMap) (resource : Json) : Checked SpanMap := do
  let scopes ← iterate (← member resource "scopeSpans")
  scopes.foldlM (readScope location) spans

/-- One record of a file is one export of the Collector. -/
def readRecord (location : String) (spans : SpanMap) (record : Json) : Checked SpanMap := do
  match ← member record "resourceSpans" with
  | .arr resources => resources.foldlM (readResource location) spans
  | _ => .error (.archive "invalid OTLP envelope")

/-- The location of a line. -/
def place (file line : Nat) : String := "file " ++ toString file ++ ", line " ++ toString line

/-- Every exception that reading a file raises becomes an `ArchiveError` with the location. -/
def located {A : Type} (file line : Nat) : Checked A → Checked A
  | .error (.archive reason) => .error (.archive (place file line ++ ": " ++ reason))
  | .error _ => .error (.archive (place file line ++ ": invalid or unreadable OTLP JSONL"))
  | outcome => outcome

/-- The lines of one file, from this line on. A line that is not a JSON text fails to load. -/
def readLines (file : Nat) : Nat → List (Checked Json) → SpanMap → Checked SpanMap
  | line, [], spans => do
      located file line (require (line ≠ 0) "empty archive file")
      .ok spans
  | line, loaded :: rest, spans => do
      let spans ← located file (line + 1) (loaded >>= readRecord (place file (line + 1)) spans)
      readLines file (line + 1) rest spans

/-- The files of an archive, from this number on. -/
def readFiles : Nat → List (List (Checked Json)) → SpanMap → Checked SpanMap
  | _, [], spans => .ok spans
  | file, lines :: rest, spans => do
      let spans ← readLines file 0 lines spans
      readFiles (file + 1) rest spans

/-- This is `read_spans` on the lines of the files. -/
def readSpans (files : List (List (Checked Json))) : Checked SpanMap := do
  let spans ← readFiles 1 files SpanMap.empty
  require (!spans.entries.items.isEmpty) "archive contains no spans"
  .ok spans

end Cordboard.Archive
