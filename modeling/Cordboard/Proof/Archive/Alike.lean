import Cordboard.Proof.Archive.Equality
import Cordboard.Proof.Archive.Termination

namespace Cordboard

/-- The text of a value. -/
def Json.text? : Json → Option String
  | .str text => some text
  | _ => none

namespace Archive
open Data

section Values
variable {first second third : Option Json} {one two : Json}

theorem optionEq_iff : optionEq first second = true ↔ Option.Rel (fun one two => one.pyEq two = true) first second := by
  cases first <;> cases second <;> simp [optionEq]

/-- A number is no text and no container. -/
theorem plain_of_number {value : ℚ} (number : one.number? = some value) : one.text? = none ∧ hashable one = true := by
  cases one <;> first | exact ⟨rfl, rfl⟩ | cases number

theorem text_congr (equal : one.pyEq two = true) : one.text? = two.text? := by
  cases Json.pyEq_iff.mp equal with
  | number value own other => rw [(plain_of_number own).1, (plain_of_number other).1]
  | _ => rfl

theorem texts_congr (equal : optionEq first second = true) : first.bind Json.text? = second.bind Json.text? := by
  cases optionEq_iff.mp equal with
  | none => rfl
  | some same => exact text_congr same

/-- Equal optional values stay equal with a common default. -/
theorem getD_congr {default : Json} (same : default.pyEq default = true) (equal : optionEq first second = true) :
    (first.getD default).pyEq (second.getD default) = true := by
  cases optionEq_iff.mp equal with
  | none => exact same
  | some found => exact found

theorem isText_eq (value : Option Json) : isText value = (value.bind Json.text?).any fun text => !blank text := by
  rcases value with _ | (_ | _ | _ | _ | _ | _ | _) <;> rfl

theorem isOneOf_eq (value : Option Json) (texts : List String) :
    isOneOf value texts = (value.bind Json.text?).any fun text => texts.contains text := by
  rcases value with _ | (_ | _ | _ | _ | _ | _ | _) <;> rfl

theorem isText_congr (equal : optionEq first second = true) : isText first = isText second := by
  rw [isText_eq, isText_eq, texts_congr equal]

theorem isOneOf_congr (equal : optionEq first second = true) (texts : List String) :
    isOneOf first texts = isOneOf second texts := by
  rw [isOneOf_eq, isOneOf_eq, texts_congr equal]

theorem isSome_congr (equal : optionEq first second = true) : first.isSome = second.isSome := by
  cases optionEq_iff.mp equal <;> rfl

theorem truthy_of_number {value : ℚ} (number : one.number? = some value) : one.truthy = decide (value ≠ 0) := by
  cases one with
  | bool flag =>
      obtain rfl := Option.some.inj number
      cases flag <;> simp [Json.truthy]
  | int whole =>
      obtain rfl := Option.some.inj number
      simp [Json.truthy]
  | float part =>
      obtain rfl := Option.some.inj number
      rfl
  | null => cases number
  | str text => cases number
  | arr items => cases number
  | obj members => cases number

theorem truthy_congr (equal : one.pyEq two = true) : one.truthy = two.truthy := by
  cases Json.pyEq_iff.mp equal with
  | null => rfl
  | str text => rfl
  | number value own other => rw [truthy_of_number own, truthy_of_number other]
  | arr items => cases items <;> rfl
  | @obj members partners size same =>
      cases members <;> cases partners <;> first | rfl | cases size

theorem hashable_congr (equal : one.pyEq two = true) : hashable one = hashable two := by
  cases Json.pyEq_iff.mp equal with
  | number value own other => rw [(plain_of_number own).2, (plain_of_number other).2]
  | _ => rfl

/-- Values that are equal to equal values compare alike. -/
theorem pyEq_congr {own other mate partner : Json} (proper : own.proper = true) (valid : other.proper = true)
    (fits : mate.proper = true) (sound : partner.proper = true) (left : own.pyEq other = true)
    (right : mate.pyEq partner = true) : own.pyEq mate = other.pyEq partner := by
  have back := Json.pyEq_symm own proper valid left
  have behind := Json.pyEq_symm mate fits sound right
  rw [Bool.eq_iff_iff]
  constructor
  · intro equal
    exact Json.pyEq_trans _ back (Json.pyEq_trans _ equal right)
  · intro equal
    exact Json.pyEq_trans _ left (Json.pyEq_trans _ equal behind)

end Values

/-- The values of a decoded span are proper. -/
structure Span.Proper (span : Span) : Prop where
  parent : ∀ value, span.parentSpanId = some value → value.proper = true
  name : ∀ value, span.name = some value → value.proper = true
  attributes : (Json.obj span.attributes.items).proper = true
  others : (Json.obj span.others).proper = true

section Spans
variable {first second third : Span}

/-- The parts of two spans that are equal for Python. -/
structure SpanEqual (first second : Span) : Prop where
  spanId : first.spanId = second.spanId
  traceId : first.traceId = second.traceId
  parentSpanId : optionEq first.parentSpanId second.parentSpanId = true
  name : optionEq first.name second.name = true
  attributes : (Json.obj first.attributes.items).pyEq (.obj second.attributes.items) = true
  start : first.startTimeUnixNano = second.startTimeUnixNano
  finish : first.endTimeUnixNano = second.endTimeUnixNano
  others : (Json.obj first.others).pyEq (.obj second.others) = true

theorem spanEqual_iff : first.pyEq second = true ↔ SpanEqual first second := by
  simp only [Span.pyEq, decide_eq_true_eq]
  constructor
  · rintro ⟨spanId, traceId, parent, name, attributes, start, finish, others⟩
    exact ⟨spanId, traceId, parent, name, attributes, start, finish, others⟩
  · intro equal
    exact ⟨equal.spanId, equal.traceId, equal.parentSpanId, equal.name, equal.attributes, equal.start, equal.finish,
      equal.others⟩

theorem optionEq_symm {one two : Option Json} (proper : ∀ value, one = some value → value.proper = true)
    (valid : ∀ value, two = some value → value.proper = true) (equal : optionEq one two = true) :
    optionEq two one = true := by
  cases optionEq_iff.mp equal with
  | none => rfl
  | some same => exact Json.pyEq_symm _ (proper _ rfl) (valid _ rfl) same

theorem optionEq_trans {one two three : Option Json} (equal : optionEq one two = true)
    (next : optionEq two three = true) : optionEq one three = true := by
  cases optionEq_iff.mp equal with
  | none => exact next
  | some same =>
      cases optionEq_iff.mp next with
      | some follow => exact Json.pyEq_trans _ same follow

theorem Span.pyEq_refl (proper : first.Proper) : first.pyEq first = true := by
  have option : ∀ value : Option Json, (∀ inside, value = some inside → inside.proper = true) →
      optionEq value value = true := by
    intro value valid
    cases value with
    | none => rfl
    | some inside => exact Json.pyEq_refl inside (valid inside rfl)
  exact spanEqual_iff.mpr ⟨rfl, rfl, option _ proper.parent, option _ proper.name, Json.pyEq_refl _ proper.attributes,
    rfl, rfl, Json.pyEq_refl _ proper.others⟩

theorem Span.pyEq_symm (proper : first.Proper) (valid : second.Proper) (equal : first.pyEq second = true) :
    second.pyEq first = true := by
  have parts := spanEqual_iff.mp equal
  exact spanEqual_iff.mpr ⟨parts.spanId.symm, parts.traceId.symm,
    optionEq_symm proper.parent valid.parent parts.parentSpanId, optionEq_symm proper.name valid.name parts.name,
    Json.pyEq_symm _ proper.attributes valid.attributes parts.attributes, parts.start.symm, parts.finish.symm,
    Json.pyEq_symm _ proper.others valid.others parts.others⟩

theorem Span.pyEq_trans (equal : first.pyEq second = true) (next : second.pyEq third = true) :
    first.pyEq third = true := by
  have parts := spanEqual_iff.mp equal
  have more := spanEqual_iff.mp next
  exact spanEqual_iff.mpr ⟨parts.spanId.trans more.spanId, parts.traceId.trans more.traceId,
    optionEq_trans parts.parentSpanId more.parentSpanId, optionEq_trans parts.name more.name,
    Json.pyEq_trans _ parts.attributes more.attributes, parts.start.trans more.start, parts.finish.trans more.finish,
    Json.pyEq_trans _ parts.others more.others⟩

/-- Equal objects have equal values under each name. -/
theorem lookup_congr {members partners : List (String × Json)} (distinct : (members.map Prod.fst).Nodup)
    (equal : (Json.obj members).pyEq (.obj partners) = true) (key : String) :
    optionEq (members.lookup key) (partners.lookup key) = true := by
  cases Json.pyEq_iff.mp equal with
  | number value one two => cases one
  | obj size same =>
      cases found : members.lookup key with
      | some value =>
          obtain ⟨other, looked, agree⟩ := same key value (mem_of_lookup found)
          rw [looked]
          exact agree
      | none =>
          have known : members.map Prod.fst ⊆ partners.map Prod.fst := by
            intro own inner
            obtain ⟨⟨name, value⟩, stored, rfl⟩ := List.mem_map.mp inner
            obtain ⟨partner, looked, _⟩ := same name value stored
            exact List.mem_map.mpr ⟨_, mem_of_lookup looked, rfl⟩
          have back := Json.names_back distinct size known
          cases looked : partners.lookup key with
          | none => rfl
          | some other =>
              obtain ⟨⟨name, value⟩, stored, rfl⟩ :=
                List.mem_map.mp (back (List.mem_map_of_mem (mem_of_lookup looked)))
              rw [Json.lookup_of_mem distinct stored] at found
              cases found

/-- Equal spans have equal attributes under each key. -/
theorem SpanEqual.attribute (equal : SpanEqual first second) (key : String) :
    optionEq (first.attributes.get? key) (second.attributes.get? key) = true :=
  lookup_congr first.attributes.distinct equal.attributes key

end Spans

end Archive

end Cordboard
