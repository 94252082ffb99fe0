import Cordboard.Construction.JsonText
import Cordboard.Data.Joined

namespace Cordboard.Json
open Data

/-- A text has printable ASCII characters only. -/
def Plain (text : String) : Prop := ∀ letter ∈ text.toList, printable letter = true

theorem printable_of_all {letters : List Char} (all : letters.all printable = true) {letter : Char}
    (member : letter ∈ letters) : printable letter = true := List.all_eq_true.mp all letter member

/-- A fixed text is checked letter by letter. -/
theorem plain_of_all {text : String} (all : text.toList.all printable = true) : Plain text :=
  fun _ member => printable_of_all all member

theorem plain_append {first second : String} (one : Plain first) (two : Plain second) : Plain (first ++ second) := by
  intro letter member
  rw [String.toList_append, List.mem_append] at member
  exact member.elim (one letter) (two letter)

theorem plain_intercalate {mark : String} (separator : Plain mark) {texts : List String}
    (each : ∀ text ∈ texts, Plain text) : Plain (mark.intercalate texts) := by
  induction texts with
  | nil =>
      intro letter member
      cases member
  | cons text rest ih =>
      obtain ⟨own, others⟩ := List.forall_mem_cons.mp each
      cases rest with
      | nil => rwa [String.intercalate_singleton]
      | cons next more =>
          rw [String.intercalate_cons_cons]
          exact plain_append (plain_append own separator) (ih others)

/-- A digit of a code unit is printable. -/
theorem printable_digit (number : Nat) : printable (Nat.digitChar (number % 16)) = true := by
  have all : ∀ digit : Fin 16, printable (Nat.digitChar digit.val) = true := by decide
  exact all ⟨number % 16, Nat.mod_lt _ (by decide)⟩

theorem printable_escape {letter other : Char} (member : other ∈ escapeChar letter) : printable other = true := by
  have unit : ∀ number, ∀ digit ∈ escapeUnit number, printable digit = true := by
    intro number digit inside
    simp only [escapeUnit, hexDigits, List.mem_cons, List.not_mem_nil, or_false] at inside
    rcases inside with rfl | rfl | rfl | rfl | rfl | rfl
    · decide
    · decide
    all_goals exact printable_digit _
  unfold escapeChar at member
  -- The seven short escapes are fixed texts, and the code units have hexadecimal digits.
  iterate 7
    split at member
    · exact printable_of_all (by decide) member
  split at member
  · rename_i plain
    rw [List.mem_singleton.mp member]
    exact plain
  · unfold escapeCode at member
    split at member
    · exact unit _ _ member
    · exact (List.mem_append.mp member).elim (unit _ _) (unit _ _)

theorem plain_quoted (text : String) : Plain (quoted text) := by
  intro letter member
  rw [quoted, String.toList_ofList, List.cons_append, List.mem_cons, List.mem_append, List.mem_flatMap,
    List.mem_singleton] at member
  rcases member with rfl | ⟨_, _, inside⟩ | rfl
  · decide
  · exact printable_escape inside
  · decide

theorem plain_nat (value : Nat) : Plain (toString value) := by
  intro letter member
  have digit := isDigit_of_mem_toString member
  rw [Char.isDigit, Bool.and_eq_true, decide_eq_true_eq, decide_eq_true_eq] at digit
  have low : 48 ≤ letter.toNat := digit.1
  have high : letter.toNat ≤ 57 := digit.2
  rw [printable, decide_eq_true_eq]
  omega

theorem plain_int (value : Int) : Plain (toString value) := by
  cases value with
  | ofNat number => exact plain_nat number
  | negSucc number => exact plain_append (plain_of_all (by decide)) (plain_nat (number + 1))

section
variable (floats : FloatText)

mutual

/-- The text of a value is one line of printable ASCII characters. -/
theorem plain_dumps : ∀ value : Json, Plain (dumps floats value)
  | .null => plain_of_all (by unfold dumps; decide)
  | .bool value => by
      cases value <;> exact plain_of_all (by unfold dumps; decide)
  | .int value => plain_int value
  | .float value => floats.plain value
  | .str text => plain_quoted text
  | .arr items => by
      unfold dumps
      exact plain_append (plain_append (plain_of_all (by decide))
        (plain_intercalate (plain_of_all (by decide)) (plain_items items))) (plain_of_all (by decide))
  | .obj members => by
      unfold dumps
      refine plain_append (plain_append (plain_of_all (by decide))
        (plain_intercalate (plain_of_all (by decide)) ?_)) (plain_of_all (by decide))
      intro text listed
      obtain ⟨member, inside, rfl⟩ := List.mem_map.mp listed
      exact plain_append (plain_append (plain_quoted member.1) (plain_of_all (by decide)))
        (plain_members members member (List.mem_mergeSort.mp inside))

theorem plain_items : ∀ items : List Json, ∀ text ∈ dumpsItems floats items, Plain text
  | [], text, member => by cases member
  | item :: rest, text, member => by
      unfold dumpsItems at member
      rcases List.mem_cons.mp member with rfl | later
      · exact plain_dumps item
      · exact plain_items rest text later

theorem plain_members : ∀ members : List (String × Json), ∀ member ∈ dumpsMembers floats members, Plain member.2
  | [], member, listed => by cases listed
  | (name, value) :: rest, member, listed => by
      unfold dumpsMembers at listed
      rcases List.mem_cons.mp listed with rfl | later
      · exact plain_dumps value
      · exact plain_members rest member later

end

end

end Cordboard.Json
