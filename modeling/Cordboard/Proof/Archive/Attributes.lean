import Cordboard.Construction.Archive.Read
import Cordboard.Proof.Archive.Checked
import Mathlib.Algebra.Group.Nat.Defs

namespace Cordboard.Archive
open Data

/-- OTLP spells a text, a boolean, and a 64-bit integer. An integer is a decimal text or a JSON number. -/
inductive Spelled where
  | text (value : String)
  | flag (value : Bool)
  | decimal (value : Int64)
  | number (value : Int64)

/-- The value that the spelling stands for. -/
def Spelled.value : Spelled → Json
  | .text value => .str value
  | .flag value => .bool value
  | .decimal value => .int value.toInt
  | .number value => .int value.toInt

/-- The member of an OTLP attribute value. -/
def Spelled.encode : Spelled → String × Json
  | .text value => ("stringValue", .str value)
  | .flag value => ("boolValue", .bool value)
  | .decimal value => ("intValue", .str (toString value.toInt))
  | .number value => ("intValue", .int value.toInt)

/-- A negative integer stands as a decimal text. -/
def Spelled.negative : Spelled → Bool
  | .decimal value => value.toInt < 0
  | _ => false

def encodeAttribute (item : String × Spelled) : Json :=
  .obj [("key", .str item.1), ("value", .obj [item.2.encode])]

section Decimals

/-- A decimal digit of ASCII has its own value. -/
theorem decimalDigit_digit {letter : Char} (digit : letter.isDigit = true) :
    decimalDigit letter = some (letter.toNat - '0'.toNat) := by
  have range : 48 ≤ letter.toNat ∧ letter.toNat ≤ 48 + 9 := by
    simp only [Char.isDigit, Bool.and_eq_true, decide_eq_true_eq] at digit
    exact ⟨UInt32.le_iff_toNat_le.mp digit.1, UInt32.le_iff_toNat_le.mp digit.2⟩
  unfold decimalDigit decimalZeros
  rw [List.find?_cons_of_pos (by simpa using range)]
  rfl

theorem mapM_decimalDigit {letters : List Char} (digits : ∀ letter ∈ letters, letter.isDigit = true) :
    letters.mapM decimalDigit = some (letters.map fun letter => letter.toNat - '0'.toNat) := by
  induction letters with
  | nil => rfl
  | cons letter rest ih =>
      obtain ⟨first, others⟩ := List.forall_mem_cons.mp digits
      rw [List.mapM_cons, decimalDigit_digit first, ih others]
      rfl

/-- The decimal text of a number reads back as the number. -/
theorem decimalValue_toString {number : Nat} (short : number < 10 ^ 19) :
    decimalValue (toString number) = .ok (some number) := by
  have letters : (toString number).toList = Nat.toDigits 10 number := Nat.toList_repr
  have digits : ∀ letter ∈ Nat.toDigits 10 number, letter.isDigit = true :=
    fun letter => Nat.isDigit_of_mem_toDigits (by decide) (by decide)
  have size : (Nat.toDigits 10 number).length ≤ 19 := (Nat.length_toDigits_le_iff (by decide) (by decide)).mpr short
  have total : ((Nat.toDigits 10 number).map fun letter => letter.toNat - '0'.toNat).foldl
      (fun total digit => 10 * total + digit) 0 = number := by
    rw [List.foldl_map]
    exact Nat.ofDigitChars_ten_toDigits
  unfold decimalValue
  rw [letters, mapM_decimalDigit digits]
  cases shape : Nat.toDigits 10 number with
  | nil => exact absurd shape Nat.toDigits_ne_nil
  | cons first rest =>
      rw [shape] at size total
      rw [List.map_cons] at total ⊢
      dsimp only
      rw [if_neg (by simp at size ⊢; omega), total]

/-- A sign is no digit. -/
theorem decimalValue_negative {number : Int} (negative : number < 0) : decimalValue (toString number) = .ok none := by
  have sign : (toString number).toList = '-' :: (-number).toNat.repr.toList := by
    rw [Int.toString_eq_repr, Int.repr_eq_if, if_neg (Int.not_le.mpr negative), String.toList_append]
    rfl
  unfold decimalValue
  rw [sign, List.mapM_cons]
  rfl

end Decimals

section Attributes
variable {result : Dict String Json} {item : String × Spelled} {items : List (String × Spelled)} {members : List (String × Json)}

/-- A spelled value decodes to itself, unless it is a negative decimal text. -/
theorem attributeValue_encode (spelled : Spelled) : attributeValue spelled.encode.1 spelled.encode.2 =
    if spelled.negative then .error (.archive "invalid integer attribute") else .ok spelled.value := by
  cases spelled with
  | text value => rfl
  | flag value => rfl
  | number value => rfl
  | decimal value =>
      change integerAttribute (.str (toString value.toInt)) = _
      unfold integerAttribute Spelled.negative Spelled.value
      dsimp only
      by_cases negative : value.toInt < 0
      · rw [decimalValue_negative negative, if_pos (by simpa using negative)]
        rfl
      · obtain ⟨number, own⟩ := Int.eq_ofNat_of_zero_le (Int.not_lt.mp negative)
        have high := value.toInt_le
        have limit : Int64.maxValue.toInt = 9223372036854775807 := by decide
        have short : number < 10 ^ 19 := by omega
        have text : toString (number : Int) = toString number := rfl
        rw [if_neg (by simpa using negative), own, text, decimalValue_toString short]
        rfl

/-- A new attribute joins the map, unless it is a negative decimal text. -/
theorem readAttribute_encode (fresh : result.get? item.1 = none) : readAttribute result (encodeAttribute item) =
    if item.2.negative then .error (.archive "invalid integer attribute") else .ok (result.set item.1 item.2.value) := by
  have value := attributeValue_encode item.2
  have key : member (encodeAttribute item) "key" = .ok (.str item.1) := by simp [member, encodeAttribute]
  have stored : member (encodeAttribute item) "value" = .ok (.obj [item.2.encode]) := by
    simp [member, encodeAttribute, List.lookup_cons]
  unfold readAttribute
  rw [key, stored]
  simp only [bind, Except.bind, fresh, require, Option.isNone_none, if_true, onlyMember]
  rw [value]
  cases item.2.negative <;> rfl

/-- The attributes join the map in order. -/
theorem foldlM_encode (fresh : ∀ item ∈ items, result.get? item.1 = none) (distinct : (items.map Prod.fst).Nodup)
    (plain : ∀ item ∈ items, item.2.negative = false) :
    ∃ final, (items.map encodeAttribute).foldlM readAttribute result = .ok final ∧
      final.items = result.items ++ items.map fun item => (item.1, item.2.value) := by
  induction items generalizing result with
  | nil => exact ⟨result, rfl, (List.append_nil _).symm⟩
  | cons item rest ih =>
      obtain ⟨absent, others⟩ := List.forall_mem_cons.mp fresh
      obtain ⟨own, later⟩ := List.nodup_cons.mp distinct
      obtain ⟨positive, rest_positive⟩ := List.forall_mem_cons.mp plain
      have apart : ∀ other ∈ rest, (result.set item.1 item.2.value).get? other.1 = none := by
        intro other member
        have different : other.1 ≠ item.1 := fun same => own (same ▸ List.mem_map_of_mem member)
        rw [Dict.get?_set_of_ne _ different]
        exact others other member
      obtain ⟨final, done, listed⟩ := ih apart later rest_positive
      refine ⟨final, ?_, ?_⟩
      · rw [List.map_cons, List.foldlM_cons, readAttribute_encode absent, if_neg (by simp [positive])]
        exact done
      · have appended : (result.set item.1 item.2.value).items = result.items ++ [(item.1, item.2.value)] := by
          unfold Dict.set
          rw [dif_neg ((result.get?_eq_none_iff item.1).mp absent)]
        rw [listed, appended, List.append_assoc]
        rfl

/-- A negative decimal text is refused wherever it stands. -/
theorem foldlM_negative (fresh : ∀ item ∈ items, result.get? item.1 = none) (distinct : (items.map Prod.fst).Nodup)
    (signed : ∃ item ∈ items, item.2.negative = true) :
    (items.map encodeAttribute).foldlM readAttribute result = .error (.archive "invalid integer attribute") := by
  induction items generalizing result with
  | nil => simp at signed
  | cons item rest ih =>
      obtain ⟨absent, others⟩ := List.forall_mem_cons.mp fresh
      obtain ⟨own, later⟩ := List.nodup_cons.mp distinct
      rw [List.map_cons, List.foldlM_cons, readAttribute_encode absent]
      cases negative : item.2.negative with
      | true => rfl
      | false =>
          have behind : ∃ other ∈ rest, other.2.negative = true := by
            obtain ⟨other, member, sign⟩ := signed
            rcases List.mem_cons.mp member with rfl | inside
            · rw [negative] at sign
              cases sign
            · exact ⟨other, inside, sign⟩
          apply ih _ later behind
          intro other member
          have different : other.1 ≠ item.1 := fun same => own (same ▸ List.mem_map_of_mem member)
          rw [Dict.get?_set_of_ne _ different]
          exact others other member

/-- The span lists these attributes. -/
def Declares (members : List (String × Json)) (dict : Dict String Spelled) : Prop :=
  members.lookup "attributes" = some (.arr (dict.items.map encodeAttribute))

/-- The same span without its attributes. -/
def bare (members : List (String × Json)) : List (String × Json) := members.filter fun item => item.1 ≠ "attributes"

theorem lookup_bare {key : String} (other : key ≠ "attributes") : (bare members).lookup key = members.lookup key := by
  unfold bare
  induction members with
  | nil => rfl
  | cons item rest ih =>
      obtain ⟨name, value⟩ := item
      by_cases same : name = "attributes"
      · have different : (key == name) = false := by simpa [same] using other
        rw [List.filter_cons_of_neg (by simpa using same), List.lookup_cons, different]
        exact ih
      · rw [List.filter_cons_of_pos (by simpa using same), List.lookup_cons, List.lookup_cons]
        cases key == name with
        | true => rfl
        | false => exact ih

theorem attributes_bare : attributes (bare members) = .ok Dict.empty := by
  have absent : (bare members).lookup "attributes" = none := by
    unfold bare
    induction members with
    | nil => rfl
    | cons item rest ih =>
        by_cases same : item.1 = "attributes"
        · rw [List.filter_cons_of_neg (by simpa using same)]
          exact ih
        · have different : ("attributes" == item.1) = false := by simpa using Ne.symm same
          rw [List.filter_cons_of_pos (by simpa using same), List.lookup_cons, different]
          exact ih
  unfold attributes
  rw [absent]
  rfl

theorem attributes_ok {dict : Dict String Spelled} (declared : Declares members dict)
    (plain : ∀ item ∈ dict.items, item.2.negative = false) :
    attributes members = .ok (dict.mapValues Spelled.value) := by
  obtain ⟨final, done, listed⟩ := @foldlM_encode Dict.empty dict.items (fun item _ => rfl) dict.distinct plain
  have same : final = dict.mapValues Spelled.value := by
    cases final
    exact Dict.mk.injEq .. ▸ listed
  unfold attributes
  rw [declared, ← same]
  exact done

theorem attributes_negative {dict : Dict String Spelled} (declared : Declares members dict)
    (signed : ∃ item ∈ dict.items, item.2.negative = true) :
    attributes members = .error (.archive "invalid integer attribute") := by
  unfold attributes
  rw [declared]
  exact foldlM_negative (fun item _ => rfl) dict.distinct signed

theorem member_bare {key : String} (other : key ≠ "attributes") :
    member (.obj (bare members)) key = member (.obj members) key := by
  unfold member
  dsimp only
  rw [lookup_bare other]

/-- Two checks with a common first part end alike when their rests do. -/
theorem end_bind {A B C : Type} {first : Checked A} {rest : A → Checked B} {others : A → Checked C}
    (later : ∀ value, (rest value).map (fun _ => ()) = (others value).map fun _ => ()) :
    (first >>= rest).map (fun _ => ()) = (first >>= others).map fun _ => () := by
  cases first with
  | error failure => rfl
  | ok value => exact later value

/-- Readable attributes do not decide whether a span is accepted, nor why it is refused. -/
theorem normalize_bare {attrs : Dict String Json} (read : attributes members = .ok attrs) :
    (normalize (.obj (bare members))).map (fun _ => ()) = (normalize (.obj members)).map fun _ => () := by
  have parents : parentReference (bare members) = parentReference members := by
    unfold parentReference
    rw [lookup_bare (by decide)]
  have readings : ∀ key, key ≠ "attributes" → member (.obj (bare members)) key = member (.obj members) key :=
    fun key => member_bare
  unfold normalize
  dsimp only
  rw [parents, attributes_bare, read, readings "spanId" (by decide), readings "traceId" (by decide),
    readings "startTimeUnixNano" (by decide), readings "endTimeUnixNano" (by decide)]
  apply end_bind
  intro spanId
  apply end_bind
  intro sid
  apply end_bind
  intro traceId
  apply end_bind
  intro tid
  apply end_bind
  intro above
  change Except.map _ (member (.obj members) "startTimeUnixNano" >>= _) =
    Except.map _ (member (.obj members) "startTimeUnixNano" >>= _)
  apply end_bind
  intro started
  apply end_bind
  intro start
  apply end_bind
  intro ended
  apply end_bind
  intro finish
  apply end_bind
  intro _
  rfl

/-- The attributes of a span come back exactly, and they never make a span unreadable, exactly when none of them is a
negative integer in decimal text. -/
theorem attributes_exact {dict : Dict String Spelled} (declared : Declares members dict) :
    (attributes members = .ok (dict.mapValues Spelled.value) ∧
      (normalize (.obj members)).map (fun _ => ()) = (normalize (.obj (bare members))).map fun _ => ()) ↔
    ∀ item ∈ dict.items, item.2.negative = false := by
  constructor
  · rintro ⟨read, _⟩ item member
    rw [Bool.eq_false_iff]
    intro negative
    rw [attributes_negative declared ⟨item, member, negative⟩] at read
    cases read
  · intro plain
    have read := attributes_ok declared plain
    exact ⟨read, (normalize_bare read).symm⟩

end Attributes

section Example

def sampleAttributes : Dict String Spelled :=
  ⟨[("cord.node.name", .text "review"), ("retry", .flag false), ("cord.step.attempt", .decimal 2), ("offset", .number (-5))],
    by decide⟩

theorem attributes_exact_sample :
    attributes [("attributes", .arr (sampleAttributes.items.map encodeAttribute))] =
      .ok (sampleAttributes.mapValues Spelled.value) :=
  ((@attributes_exact [("attributes", .arr (sampleAttributes.items.map encodeAttribute))] sampleAttributes rfl).mpr
    (by decide)).1

/-- A span of a Run with a negative offset in decimal text. -/
def offsetAttributes : Dict String Spelled := ⟨[("offset", .decimal (-5))], by decide⟩

def offsetSpan : List (String × Json) := [("spanId", .str "00000000000000a1"),
  ("traceId", .str "000000000000000000000000000000b1"), ("startTimeUnixNano", .str "1"), ("endTimeUnixNano", .str "2"),
  ("attributes", .arr (offsetAttributes.items.map encodeAttribute))]

def exported (span : List (String × Json)) : Json := .obj [("resourceSpans", .arr [.obj [("scopeSpans", .arr [.obj
  [("spans", .arr [.obj span])]])]])]

/-- This legal attribute makes the whole archive unreadable. -/
theorem offset_refused : Declares offsetSpan offsetAttributes ∧
    attributes offsetSpan ≠ .ok (offsetAttributes.mapValues Spelled.value) ∧
    readSpans [[.ok (exported offsetSpan)]] = .error (.archive "file 1, line 1: invalid integer attribute") ∧
    (readSpans [[.ok (exported (bare offsetSpan))]]).isOk = true := by
  have declared : Declares offsetSpan offsetAttributes := rfl
  have refused := attributes_negative declared ⟨("offset", .decimal (-5)), List.mem_singleton_self _, by decide⟩
  refine ⟨declared, ?_, by rfl, by rfl⟩
  rw [refused]
  simp

end Example

end Cordboard.Archive
