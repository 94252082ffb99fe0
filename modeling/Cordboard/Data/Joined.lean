import Mathlib.Data.List.Basic

namespace Data

/-- A decimal text has digits only. -/
theorem isDigit_of_mem_toString {number : Nat} {letter : Char} (member : letter ∈ (toString number).toList) :
    letter.isDigit = true := by
  have letters : (toString number).toList = Nat.toDigits 10 number := Nat.toList_repr
  rw [letters] at member
  exact Nat.isDigit_of_mem_toDigits (by decide) (by decide) member

/-- Two numbers with one decimal text are equal. -/
theorem toString_injective : Function.Injective (toString : Nat → String) := by
  intro first second same
  have one : (toString first).toList = Nat.toDigits 10 first := Nat.toList_repr
  have two : (toString second).toList = Nat.toDigits 10 second := Nat.toList_repr
  rw [same, two] at one
  rw [← @Nat.ofDigitChars_ten_toDigits first, ← @Nat.ofDigitChars_ten_toDigits second, one]

/-- The parts of a text between the marks. -/
def parts (mark : Char) (text : String) : List (List Char) := text.toList.splitOn mark

theorem parts_injective (mark : Char) : Function.Injective (parts mark) := by
  intro first second same
  have one := @List.intercalate_splitOn _ first.toList _ _ mark
  have two := @List.intercalate_splitOn _ second.toList _ _ mark
  unfold parts at same
  rw [same, two] at one
  exact String.toList_injective one.symm

/-- A text without the mark has one part. -/
theorem parts_of_not_mem {mark : Char} {text : String} (absent : mark ∉ text.toList) : parts mark text = [text.toList] :=
  List.splitOn_eq_singleton absent

/-- The parts of a joined text are those of its pieces in order. -/
theorem parts_intercalate (mark : Char) {texts : List String} (filled : texts ≠ []) :
    parts mark ((String.singleton mark).intercalate texts) = texts.flatMap (parts mark) := by
  induction texts with
  | nil => exact absurd rfl filled
  | cons text rest ih =>
      cases rest with
      | nil => rw [String.intercalate_singleton, List.flatMap_singleton]
      | cons next others =>
          rw [String.intercalate_cons_cons, List.flatMap_cons, ← ih (List.cons_ne_nil _ _)]
          unfold parts
          rw [String.toList_append, String.toList_append, String.toList_singleton, List.append_assoc,
            List.singleton_append, List.splitOn_append_cons_self]

/-- Two joined texts are equal when their pieces have the same parts. -/
theorem intercalate_eq_iff (mark : Char) {first second : List String} (one : first ≠ []) (two : second ≠ []) :
    (String.singleton mark).intercalate first = (String.singleton mark).intercalate second ↔
      first.flatMap (parts mark) = second.flatMap (parts mark) := by
  rw [← parts_intercalate mark one, ← parts_intercalate mark two]
  exact (parts_injective mark).eq_iff.symm

/-- The pieces of a joined text are known when no piece has the mark. -/
theorem intercalate_injective (mark : Char) {first second : List String} (one : ∀ piece ∈ first, mark ∉ piece.toList)
    (two : ∀ piece ∈ second, mark ∉ piece.toList) (some_ : first ≠ []) (more : second ≠ [])
    (same : (String.singleton mark).intercalate first = (String.singleton mark).intercalate second) : first = second := by
  have whole : ∀ texts : List String, (∀ piece ∈ texts, mark ∉ piece.toList) →
      texts.flatMap (parts mark) = texts.map String.toList := by
    intro texts absent
    rw [← List.flatMap_pure_eq_map]
    exact List.flatMap_congr fun piece member => parts_of_not_mem (absent piece member)
  have equal := (intercalate_eq_iff mark some_ more).mp same
  rw [whole first one, whole second two] at equal
  exact (List.map_injective_iff.mpr fun _ _ => String.toList_injective) equal

end Data
