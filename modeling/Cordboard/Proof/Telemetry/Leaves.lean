import Cordboard.Construction.Telemetry

namespace Cordboard.Telemetry
open Data

/-- The redactor has to read these places of a message. -/
inductive Leaf where
  | text (value : String)
  | bytes (value : List UInt8)
  | unreadable
deriving DecidableEq

mutual

def leavesOfField (name : String) : Field → List Leaf
  | .message fields => leaves fields
  | .messages items => leavesOfItems items
  | .text value => [.text value]
  | .texts _ => [.unreadable]
  | .bytes value => if name = "bytes_value" then [.bytes value] else []
  | .byteItems _ => if name = "bytes_value" then [.unreadable] else []
  | .flag _ => []
  | .number _ => []

/-- Every text and every `bytes_value` at any depth, in order. -/
def leaves : List (String × Field) → List Leaf
  | [] => []
  | (name, field) :: rest => leavesOfField name field ++ leaves rest

def leavesOfItems : List (List (String × Field)) → List Leaf
  | [] => []
  | item :: rest => leaves item ++ leavesOfItems rest

end

def KeyValue.leaves (attribute_ : KeyValue) : List Leaf :=
  attribute_.key.toList.map .text ++ Telemetry.leaves attribute_.fields

def SpanMessage.leaves (span : SpanMessage) : List Leaf :=
  span.attributes.flatMap KeyValue.leaves ++ Telemetry.leaves span.fields

def ScopeSpans.leaves (scope : ScopeSpans) : List Leaf :=
  scope.spans.flatMap SpanMessage.leaves ++ Telemetry.leaves scope.fields

def ResourceSpans.leaves (resource : ResourceSpans) : List Leaf :=
  resource.scopeSpans.flatMap ScopeSpans.leaves ++ Telemetry.leaves resource.fields

section
variable (redactor : Redactor)

/-- The scan returns, and it has no blocking finding. -/
def passesText (value : String) : Bool :=
  match redactor.scanAndRedact value with
  | none => false
  | some result => !result.findings.any fun finding => finding.action = "block"

/-- The place has no blocking finding, and the redactor does not fail on it. -/
def passes : Leaf → Bool
  | .text value => passesText redactor value
  | .bytes value =>
      match String.fromUTF8? ⟨value.toArray⟩ with
      | some decoded => passesText redactor decoded
      | none => false
  | .unreadable => false

/-- The redactor's text for a value. -/
def redacted (value : String) : String :=
  match redactor.scanAndRedact value with
  | some result => result.text
  | none => ""

/-- The redactor's text for the text that the bytes encode. -/
def redactedBytes (value : List UInt8) : List UInt8 :=
  match String.fromUTF8? ⟨value.toArray⟩ with
  | some decoded => Percent.utf8 (redacted redactor decoded)
  | none => []

mutual

def replaceField (name : String) : Field → Field
  | .message fields => .message (replace fields)
  | .messages items => .messages (replaceItems items)
  | .text value => .text (redacted redactor value)
  | .texts values => .texts values
  | .bytes value => if name = "bytes_value" then .bytes (redactedBytes redactor value) else .bytes value
  | .byteItems values => .byteItems values
  | .flag value => .flag value
  | .number value => .number value

/-- Every text and every `bytes_value` becomes the redactor's text for it. The rest is kept. -/
def replace : List (String × Field) → List (String × Field)
  | [] => []
  | (name, field) :: rest => (name, replaceField name field) :: replace rest

def replaceItems : List (List (String × Field)) → List (List (String × Field))
  | [] => []
  | item :: rest => replace item :: replaceItems rest

end

def KeyValue.replace (attribute_ : KeyValue) : KeyValue :=
  ⟨attribute_.key.map (redacted redactor), Telemetry.replace redactor attribute_.fields⟩

def SpanMessage.replace (span : SpanMessage) : SpanMessage :=
  ⟨span.attributes.map (KeyValue.replace redactor), Telemetry.replace redactor span.fields⟩

def ScopeSpans.replace (scope : ScopeSpans) : ScopeSpans :=
  ⟨scope.spans.map (SpanMessage.replace redactor), Telemetry.replace redactor scope.fields⟩

def ResourceSpans.replace (resource : ResourceSpans) : ResourceSpans :=
  ⟨resource.scopeSpans.map (ScopeSpans.replace redactor), Telemetry.replace redactor resource.fields⟩

end

/-- The walk returns the replaced value when each of its places passes, and it fails otherwise. -/
def Redacts {A : Type} (redactor : Redactor) (places : List Leaf) (replaced : A) (outcome : Except Suppressed A) : Prop :=
  outcome.toOption = if places.all (passes redactor) then some replaced else none

section
variable {A B C : Type} {redactor : Redactor} {first second : List Leaf} {one : Except Suppressed A}
  {two : Except Suppressed B} {x : A} {y : B}

theorem redacts_none (redactor : Redactor) (value : A) : Redacts redactor [] value (.ok value) := rfl

/-- Two walks in a row read the places of both. -/
theorem Redacts.both (left : Redacts redactor first x one) (right : Redacts redactor second y two) (join : A → B → C) :
    Redacts redactor (first ++ second) (join x y) (do
      let x ← one
      let y ← two
      .ok (join x y)) := by
  unfold Redacts at left right ⊢
  rw [List.all_append]
  cases one with
  | error reason =>
      have fails : first.all (passes redactor) = false := by
        cases all : first.all (passes redactor) with
        | false => rfl
        | true => simp [all, Except.toOption] at left
      rw [fails]
      rfl
  | ok value =>
      have passed : first.all (passes redactor) = true := by
        cases all : first.all (passes redactor) with
        | false => simp [all, Except.toOption] at left
        | true => rfl
      have same : value = x := by simpa [passed, Except.toOption] using left
      rw [passed, Bool.true_and, same]
      cases two with
      | error reason =>
          cases all : second.all (passes redactor) with
          | false => rfl
          | true => simp [all, Except.toOption] at right
      | ok value =>
          cases all : second.all (passes redactor) with
          | false => simp [all, Except.toOption] at right
          | true =>
              have same : value = y := by simpa [all, Except.toOption] using right
              rw [same]
              rfl

theorem Redacts.wrap (inner : Redacts redactor first x one) (wrap : A → C) : Redacts redactor first (wrap x) (do
      let x ← one
      .ok (wrap x)) := by
  have alone := inner.both (redacts_none redactor ()) fun x _ => wrap x
  rw [List.append_nil] at alone
  exact alone

theorem redacts_mapM {walk : A → Except Suppressed A} {leavesOf : A → List Leaf} {replaced : A → A}
    (each : ∀ item, Redacts redactor (leavesOf item) (replaced item) (walk item)) (items : List A) :
    Redacts redactor (items.flatMap leavesOf) (items.map replaced) (items.mapM walk) := by
  induction items with
  | nil => exact redacts_none redactor []
  | cons item rest ih =>
      rw [List.flatMap_cons, List.map_cons, List.mapM_cons]
      exact (each item).both ih List.cons

end

theorem redacts_text (redactor : Redactor) (value : String) :
    Redacts redactor [.text value] (redacted redactor value) (text redactor value) := by
  unfold Redacts text
  simp only [List.all_cons, List.all_nil, Bool.and_true, passes, passesText, redacted]
  cases redactor.scanAndRedact value with
  | none => rfl
  | some result =>
      cases blocked : result.findings.any fun finding => finding.action = "block" <;>
        simp [blocked, Except.toOption]

theorem redacts_bytes (redactor : Redactor) (value : List UInt8) :
    Redacts redactor [.bytes value] (redactedBytes redactor value) (do
      let decoded ← decodeBytes value
      let value ← text redactor decoded
      .ok (Percent.utf8 value)) := by
  unfold Redacts decodeBytes
  simp only [List.all_cons, List.all_nil, Bool.and_true, passes, redactedBytes]
  cases String.fromUTF8? ⟨value.toArray⟩ with
  | none => rfl
  | some decoded =>
      have read := (redacts_text redactor decoded).wrap Percent.utf8
      unfold Redacts at read
      rw [List.all_cons, List.all_nil, Bool.and_true] at read
      exact read

/-- No result comes from a place that cannot be read. -/
theorem redacts_unreadable {A : Type} (redactor : Redactor) (value : A) :
    Redacts redactor [.unreadable] value (.error .failed) := rfl

mutual

theorem sanitizeField_redacts (redactor : Redactor) (name : String) : (field : Field) →
    Redacts redactor (leavesOfField name field) (replaceField redactor name field) (sanitizeField redactor name field)
  | .message fields => by
      unfold sanitizeField leavesOfField replaceField
      exact (sanitize_redacts redactor fields).wrap Field.message
  | .messages items => by
      unfold sanitizeField leavesOfField replaceField
      exact (sanitizeItems_redacts redactor items).wrap Field.messages
  | .text value => by
      unfold sanitizeField leavesOfField replaceField
      exact (redacts_text redactor value).wrap Field.text
  | .texts values => by
      unfold sanitizeField leavesOfField
      exact redacts_unreadable redactor _
  | .bytes value => by
      unfold sanitizeField leavesOfField replaceField
      by_cases payload : name = "bytes_value"
      · rw [if_pos payload, if_pos payload, if_pos payload]
        have read := (redacts_bytes redactor value).wrap Field.bytes
        simp only [bind_assoc] at read
        exact read
      · rw [if_neg payload, if_neg payload, if_neg payload]
        exact redacts_none redactor _
  | .byteItems values => by
      unfold sanitizeField leavesOfField replaceField
      by_cases payload : name = "bytes_value"
      · rw [if_pos payload, if_pos payload]
        exact redacts_unreadable redactor _
      · rw [if_neg payload, if_neg payload]
        exact redacts_none redactor _
  | .flag value => by
      unfold sanitizeField leavesOfField replaceField
      exact redacts_none redactor _
  | .number value => by
      unfold sanitizeField leavesOfField replaceField
      exact redacts_none redactor _

/-- The walk over a message reads each of its places. -/
theorem sanitize_redacts (redactor : Redactor) : (fields : List (String × Field)) →
    Redacts redactor (leaves fields) (replace redactor fields) (sanitize redactor fields)
  | [] => redacts_none redactor []
  | (name, field) :: rest => by
      unfold sanitize leaves replace
      exact (sanitizeField_redacts redactor name field).both (sanitize_redacts redactor rest) fun field rest =>
        (name, field) :: rest

theorem sanitizeItems_redacts (redactor : Redactor) : (items : List (List (String × Field))) →
    Redacts redactor (leavesOfItems items) (replaceItems redactor items) (sanitizeItems redactor items)
  | [] => redacts_none redactor []
  | item :: rest => by
      unfold sanitizeItems leavesOfItems replaceItems
      exact (sanitize_redacts redactor item).both (sanitizeItems_redacts redactor rest) List.cons

end

theorem key_redacts (redactor : Redactor) (key : Option String) :
    Redacts redactor (key.toList.map Leaf.text) (key.map (redacted redactor)) (key.mapM (text redactor)) := by
  cases key with
  | none => exact redacts_none redactor _
  | some key => exact (redacts_text redactor key).wrap some

theorem sanitizeKeyValue_redacts (redactor : Redactor) (attribute_ : KeyValue) :
    Redacts redactor attribute_.leaves (attribute_.replace redactor) (sanitizeKeyValue redactor attribute_) :=
  (key_redacts redactor attribute_.key).both (sanitize_redacts redactor attribute_.fields) KeyValue.mk

theorem sanitizeSpan_redacts (redactor : Redactor) (span : SpanMessage) :
    Redacts redactor span.leaves (span.replace redactor) (sanitizeSpan redactor span) :=
  (redacts_mapM (sanitizeKeyValue_redacts redactor) span.attributes).both (sanitize_redacts redactor span.fields)
    SpanMessage.mk

theorem sanitizeScope_redacts (redactor : Redactor) (scope : ScopeSpans) :
    Redacts redactor scope.leaves (scope.replace redactor) (sanitizeScope redactor scope) :=
  (redacts_mapM (sanitizeSpan_redacts redactor) scope.spans).both (sanitize_redacts redactor scope.fields)
    ScopeSpans.mk

/-- A sanitized envelope holds the redactor's text at each place. -/
theorem sanitizeResource_redacts (redactor : Redactor) (resource : ResourceSpans) :
    Redacts redactor resource.leaves (resource.replace redactor) (sanitizeResource redactor resource) :=
  (redacts_mapM (sanitizeScope_redacts redactor) resource.scopeSpans).both (sanitize_redacts redactor resource.fields)
    ResourceSpans.mk

end Cordboard.Telemetry
