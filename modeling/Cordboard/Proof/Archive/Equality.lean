import Cordboard.Construction.Archive.Read

namespace Cordboard
open Data

namespace Json

/-- A proof about every value needs the items of an array and the members of an object first. -/
theorem induct {P : Json → Prop} (simple : ∀ value, (∀ items, value ≠ .arr items) → (∀ members, value ≠ .obj members) →
    P value) (arr : ∀ items, (∀ item ∈ items, P item) → P (.arr items))
    (obj : ∀ members, (∀ name value, (name, value) ∈ members → P value) → P (.obj members)) (value : Json) : P value := by
  cases value with
  | arr items =>
      apply arr
      intro item member
      exact induct simple arr obj item
  | obj members =>
      apply obj
      intro name item member
      exact induct simple arr obj item
  | null => exact simple _ (by simp) (by simp)
  | bool value => exact simple _ (by simp) (by simp)
  | int value => exact simple _ (by simp) (by simp)
  | float value => exact simple _ (by simp) (by simp)
  | str value => exact simple _ (by simp) (by simp)
termination_by sizeOf value
decreasing_by
  · have smaller := List.sizeOf_lt_of_mem member
    simp only [Json.arr.sizeOf_spec]
    omega
  · have smaller := List.sizeOf_lt_of_mem member
    simp only [Prod.mk.sizeOf_spec, Json.obj.sizeOf_spec] at smaller ⊢
    omega

mutual

/-- Decoded objects have no member twice. -/
def proper : Json → Bool
  | .arr items => properItems items
  | .obj members => (members.map Prod.fst).Nodup && properMembers members
  | _ => true

def properItems : List Json → Bool
  | [] => true
  | item :: rest => proper item && properItems rest

def properMembers : List (String × Json) → Bool
  | [] => true
  | (_, value) :: rest => proper value && properMembers rest

end

theorem properItems_iff {items : List Json} : properItems items = true ↔ ∀ item ∈ items, item.proper = true := by
  induction items with
  | nil => simp [properItems]
  | cons item rest ih => simp [properItems, ih]

theorem properMembers_iff {members : List (String × Json)} :
    properMembers members = true ↔ ∀ name value, (name, value) ∈ members → value.proper = true := by
  induction members with
  | nil => simp [properMembers]
  | cons item rest ih =>
      obtain ⟨name, value⟩ := item
      rw [properMembers, Bool.and_eq_true, ih]
      constructor
      · rintro ⟨own, others⟩ other found member
        rcases List.mem_cons.mp member with same | later
        · obtain ⟨rfl, rfl⟩ := Prod.mk.inj same
          exact own
        · exact others other found later
      · intro all
        exact ⟨all name value List.mem_cons_self, fun other found later => all other found (List.mem_cons_of_mem _ later)⟩

theorem pyEqItems_iff {first second : List Json} :
    pyEqItems first second = true ↔ List.Forall₂ (fun one two => one.pyEq two = true) first second := by
  induction first generalizing second with
  | nil => cases second <;> simp [pyEqItems]
  | cons item rest ih => cases second <;> simp [pyEqItems, ih]

theorem pyEqMembers_iff {first second : List (String × Json)} :
    pyEqMembers first second = true ↔
      ∀ name value, (name, value) ∈ first → ∃ other, second.lookup name = some other ∧ value.pyEq other = true := by
  induction first with
  | nil => simp [pyEqMembers]
  | cons item rest ih =>
      obtain ⟨name, value⟩ := item
      rw [pyEqMembers, Bool.and_eq_true, ih]
      constructor
      · rintro ⟨own, others⟩ other found member
        rcases List.mem_cons.mp member with same | later
        · obtain ⟨rfl, rfl⟩ := Prod.mk.inj same
          cases looked : second.lookup other with
          | none => simp [looked] at own
          | some partner =>
              rw [looked] at own
              exact ⟨partner, rfl, own⟩
        · exact others other found later
      · intro all
        refine ⟨?_, fun other found later => all other found (List.mem_cons_of_mem _ later)⟩
        obtain ⟨partner, looked, equal⟩ := all name value List.mem_cons_self
        rw [looked]
        exact equal

/-- Two values are equal as `None`, as texts, as numbers, as arrays or as objects. -/
inductive Equal : Json → Json → Prop
  | null : Equal .null .null
  | str (text : String) : Equal (.str text) (.str text)
  | number {first second : Json} (value : ℚ) (one : first.number? = some value) (two : second.number? = some value) :
      Equal first second
  | arr {first second : List Json} (items : List.Forall₂ (fun one two => one.pyEq two = true) first second) :
      Equal (.arr first) (.arr second)
  | obj {first second : List (String × Json)} (size : first.length = second.length)
      (members : ∀ name value, (name, value) ∈ first → ∃ other, second.lookup name = some other ∧ value.pyEq other = true) :
      Equal (.obj first) (.obj second)

theorem number_of_pyEq {first second : Json}
    (equal : (first.number?.isSome && first.number? == second.number?) = true) : Equal first second := by
  rw [Bool.and_eq_true, beq_iff_eq] at equal
  obtain ⟨value, one⟩ := Option.isSome_iff_exists.mp equal.1
  exact .number value one (equal.2 ▸ one)

theorem pyEq_of_number {first second : Json} {value : ℚ} (one : first.number? = some value)
    (two : second.number? = some value) : first.pyEq second = true := by
  cases first <;> cases second <;> simp_all [number?, pyEq]

theorem pyEq_iff {first second : Json} : first.pyEq second = true ↔ Equal first second := by
  constructor
  · intro equal
    cases first with
    | null =>
        cases second <;> simp [pyEq, number?] at equal
        exact .null
    | str text =>
        cases second <;> simp [pyEq, number?] at equal
        subst equal
        exact .str text
    | arr items =>
        cases second <;> simp [pyEq, number?] at equal
        exact .arr (pyEqItems_iff.mp equal)
    | obj members =>
        cases second <;> simp [pyEq, number?] at equal
        exact .obj equal.1 (pyEqMembers_iff.mp equal.2)
    | bool value =>
        apply number_of_pyEq
        cases second <;> exact equal
    | int value =>
        apply number_of_pyEq
        cases second <;> exact equal
    | float value =>
        apply number_of_pyEq
        cases second <;> exact equal
  · intro equal
    cases equal with
    | null => simp [pyEq]
    | str text => simp [pyEq]
    | number value one two => exact pyEq_of_number one two
    | arr items => exact pyEqItems_iff.mpr items
    | obj size members =>
        rw [pyEq, Bool.and_eq_true, beq_iff_eq]
        exact ⟨size, pyEqMembers_iff.mpr members⟩

theorem lookup_of_mem {members : List (String × Json)} (once : (members.map Prod.fst).Nodup) {name : String}
    {value : Json} (member : (name, value) ∈ members) : members.lookup name = some value := by
  have stored := (Dict.get?_eq_some_iff ⟨members, once⟩ name value).mpr member
  exact stored

theorem proper_obj {members : List (String × Json)} : (Json.obj members).proper = true ↔
    (members.map Prod.fst).Nodup ∧ ∀ name value, (name, value) ∈ members → value.proper = true := by
  rw [proper, Bool.and_eq_true, decide_eq_true_eq, properMembers_iff]

theorem proper_arr {items : List Json} : (Json.arr items).proper = true ↔ ∀ item ∈ items, item.proper = true := by
  rw [proper, properItems_iff]

theorem pyEq_refl (value : Json) : value.proper = true → value.pyEq value = true := by
  induction value using induct with
  | simple value notArr notObj =>
      intro _
      cases value with
      | null => simp [pyEq]
      | str text => simp [pyEq]
      | bool value => exact pyEq_of_number rfl rfl
      | int value => exact pyEq_of_number rfl rfl
      | float value => exact pyEq_of_number rfl rfl
      | arr items => exact absurd rfl (notArr items)
      | obj members => exact absurd rfl (notObj members)
  | arr items ih =>
      intro valid
      have inside := proper_arr.mp valid
      apply pyEq_iff.mpr (.arr _)
      apply List.forall₂_same.mpr
      intro item member
      exact ih item member (inside item member)
  | obj members ih =>
      intro valid
      obtain ⟨once, inside⟩ := proper_obj.mp valid
      apply pyEq_iff.mpr (.obj rfl _)
      intro name value member
      exact ⟨value, lookup_of_mem once member, ih name value member (inside name value member)⟩

theorem forall₂_symm {first second : List Json}
    (each : ∀ one ∈ first, ∀ two ∈ second, one.pyEq two = true → two.pyEq one = true)
    (same : List.Forall₂ (fun one two => one.pyEq two = true) first second) :
    List.Forall₂ (fun one two => one.pyEq two = true) second first := by
  induction same with
  | nil => exact .nil
  | cons equal rest ih =>
      refine .cons (each _ List.mem_cons_self _ List.mem_cons_self equal) (ih fun one member two other => ?_)
      exact each one (List.mem_cons_of_mem _ member) two (List.mem_cons_of_mem _ other)

theorem forall₂_trans {first second third : List Json}
    (each : ∀ one ∈ first, ∀ {two three : Json}, one.pyEq two = true → two.pyEq three = true → one.pyEq three = true)
    (same : List.Forall₂ (fun one two => one.pyEq two = true) first second)
    (next : List.Forall₂ (fun one two => one.pyEq two = true) second third) :
    List.Forall₂ (fun one two => one.pyEq two = true) first third := by
  induction same generalizing third with
  | nil => exact next
  | cons equal rest ih =>
      cases next with
      | cons follow others =>
          refine .cons (each _ List.mem_cons_self equal follow) (ih (fun one member => ?_) others)
          exact each one (List.mem_cons_of_mem _ member)

/-- Members without repetition that are as many and stand inside the others are all of them. -/
theorem names_back {first second : List (String × Json)} (once : (first.map Prod.fst).Nodup)
    (size : first.length = second.length) (inside : first.map Prod.fst ⊆ second.map Prod.fst) :
    second.map Prod.fst ⊆ first.map Prod.fst := by
  have perm : (first.map Prod.fst).Perm (second.map Prod.fst) := by
    apply (List.subperm_of_subset once inside).perm_of_length_le
    simp [size]
  exact perm.symm.subset

theorem pyEq_symm (first : Json) : ∀ {second : Json}, first.proper = true → second.proper = true →
    first.pyEq second = true → second.pyEq first = true := by
  induction first using induct with
  | simple value notArr notObj =>
      intro second _ _ equal
      cases pyEq_iff.mp equal with
      | null => exact equal
      | str text => exact equal
      | number value one two => exact pyEq_of_number two one
      | arr items => exact absurd rfl (notArr _)
      | obj size members => exact absurd rfl (notObj _)
  | arr items ih =>
      intro second valid other equal
      cases pyEq_iff.mp equal with
      | number value one two => cases one
      | arr same =>
          have inside := proper_arr.mp valid
          have others := proper_arr.mp other
          apply pyEq_iff.mpr (.arr _)
          apply forall₂_symm _ same
          intro one member two partner
          exact ih one member (inside one member) (others two partner)
  | obj members ih =>
      intro second valid other equal
      cases pyEq_iff.mp equal with
      | number value one two => cases one
      | @obj _ partners size same =>
          obtain ⟨once, inside⟩ := proper_obj.mp valid
          obtain ⟨single, others⟩ := proper_obj.mp other
          apply pyEq_iff.mpr (.obj size.symm _)
          intro name value member
          have known : members.map Prod.fst ⊆ partners.map Prod.fst := by
            intro own inner
            obtain ⟨⟨key, item⟩, stored, rfl⟩ := List.mem_map.mp inner
            obtain ⟨partner, looked, _⟩ := same key item stored
            exact List.mem_map.mpr ⟨_, mem_of_lookup looked, rfl⟩
          obtain ⟨⟨key, item⟩, stored, named⟩ :=
            List.mem_map.mp (names_back once size known (List.mem_map_of_mem member))
          obtain rfl : key = name := named
          obtain ⟨partner, looked, agree⟩ := same key item stored
          obtain rfl : value = partner := Option.some.inj ((lookup_of_mem single member).symm.trans looked)
          exact ⟨item, lookup_of_mem once stored, ih key item stored (inside key item stored) (others key value member) agree⟩

/-- Equality of Python is transitive. -/
theorem pyEq_trans (first : Json) : ∀ {second third : Json}, first.pyEq second = true → second.pyEq third = true →
    first.pyEq third = true := by
  induction first using induct with
  | simple value notArr notObj =>
      intro second third equal next
      cases pyEq_iff.mp equal with
      | null => exact next
      | str text => exact next
      | number value one two =>
          cases pyEq_iff.mp next with
          | null => cases two
          | str text => cases two
          | number other three four =>
              obtain rfl := Option.some.inj (two.symm.trans three)
              exact pyEq_of_number one four
          | arr items => cases two
          | obj size members => cases two
      | arr items => exact absurd rfl (notArr _)
      | obj size members => exact absurd rfl (notObj _)
  | arr items ih =>
      intro second third equal next
      cases pyEq_iff.mp equal with
      | number value one two => cases one
      | arr same =>
          cases pyEq_iff.mp next with
          | number value one two => cases one
          | arr later =>
              apply pyEq_iff.mpr (.arr _)
              exact forall₂_trans ih same later
  | obj members ih =>
      intro second third equal next
      cases pyEq_iff.mp equal with
      | number value one two => cases one
      | obj size same =>
          cases pyEq_iff.mp next with
          | number value one two => cases one
          | obj more later =>
              apply pyEq_iff.mpr (.obj (size.trans more) _)
              intro name value member
              obtain ⟨middle, looked, agree⟩ := same name value member
              obtain ⟨last, found, follow⟩ := later name middle (mem_of_lookup looked)
              exact ⟨last, found, ih name value member agree follow⟩

end Json

end Cordboard
