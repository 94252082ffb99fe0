import Mathlib.Data.List.Basic

namespace Data.EventStream

/-- The fields of the format that a reader keeps. -/
inductive Field where
  | event
  | data
  | id
deriving DecidableEq

/-- A line starts with the name of its field and a colon. -/
def Field.label : Field → String
  | .event => "event:"
  | .data => "data:"
  | .id => "id:"

/-- One line that is not empty. The pads stand on both sides of the value. -/
inductive Line where
  | field (kind : Field) (before value after : String)
  | comment (text : String)
  | unknown (text : String)

def Line.text : Line → String
  | .field kind before value after => kind.label ++ (before ++ value ++ after)
  | .comment text => ":" ++ text
  | .unknown text => text

/-- The value of this field in the line. -/
def Line.value? (kind : Field) : Line → Option String
  | .field other _ value _ => if other = kind then some value else none
  | _ => none

/-- The values of this field in order. -/
def values (kind : Field) (block : List Line) : List String := block.filterMap (Line.value? kind)

/-- One event of the stream. Its data text may be spread over several lines. -/
structure Frame where
  event : String
  data : List String
  id : Option String

/-- The data lines are one text with line breaks. -/
def Frame.text (frame : Frame) : String := "\n".intercalate frame.data

section
variable (space : Char → Bool)

/-- The text neither starts nor ends with a blank. -/
def Trimmed (text : String) : Prop :=
  (∀ c ∈ text.toList.head?, space c = false) ∧ ∀ c ∈ text.toList.getLast?, space c = false

/-- A pad has blanks only, a value is trimmed, and an unknown line looks like none of the others. -/
def Line.Sound : Line → Prop
  | .field _ before value after =>
      before.toList.all space = true ∧ Trimmed space value ∧ after.toList.all space = true
  | .comment _ => True
  | .unknown text => text ≠ "" ∧ ¬ ":".toList <+: text.toList ∧ ∀ kind : Field, ¬ kind.label.toList <+: text.toList

/-- The block carries the fields of the frame among any other lines. -/
structure Carries (frame : Frame) (block : List Line) : Prop where
  sound : ∀ line ∈ block, line.Sound space
  event : values .event block = [frame.event]
  data : values .data block = frame.data
  id : values .id block = frame.id.toList

/-- The block has comments and unknown lines only. -/
structure Idle (block : List Line) : Prop where
  sound : ∀ line ∈ block, line.Sound space
  silent : ∀ kind, values kind block = []

/-- A blank line ends each block. The stream may stop within a block, and then that block is cut off. -/
inductive Serialized : List Frame → List String → Prop
  | cut {lines : List String} (open_ : "" ∉ lines) : Serialized [] lines
  | idle {frames : List Frame} {lines : List String} (block : List Line) (idle : Idle space block)
      (rest : Serialized frames lines) : Serialized frames (block.map Line.text ++ "" :: lines)
  | frame {frame : Frame} {frames : List Frame} {lines : List String} (block : List Line)
      (carries : Carries space frame block) (rest : Serialized frames lines) :
      Serialized (frame :: frames) (block.map Line.text ++ "" :: lines)

end

/-- The lines of a text. A line feed ends a line, and a last line may be open. -/
def linesOf : List Char → List (List Char)
  | [] => []
  | letter :: rest =>
      if letter = '\n' then [] :: linesOf rest
      else match linesOf rest with
        | [] => [[letter]]
        | line :: others => (letter :: line) :: others

/-- A block of lines and the blank line behind it. -/
def blockText : List (List Char) → List Char
  | [] => ['\n']
  | line :: rest => line ++ '\n' :: blockText rest

section Lines
variable {line rest : List Char} {block : List (List Char)}

theorem linesOf_ended (single : '\n' ∉ line) : linesOf (line ++ '\n' :: rest) = line :: linesOf rest := by
  induction line with
  | nil => rw [List.nil_append, linesOf, if_pos rfl]
  | cons letter others ih =>
      rw [List.mem_cons, not_or] at single
      rw [List.cons_append, linesOf, if_neg (Ne.symm single.1), ih single.2]

theorem linesOf_open (single : '\n' ∉ line) (filled : line ≠ []) : linesOf line = [line] := by
  induction line with
  | nil => exact absurd rfl filled
  | cons letter others ih =>
      rw [List.mem_cons, not_or] at single
      rw [linesOf, if_neg (Ne.symm single.1)]
      by_cases last : others = []
      · rw [last]
        rfl
      · rw [ih single.2 last]

theorem linesOf_block (single : ∀ line ∈ block, '\n' ∉ line) :
    linesOf (blockText block ++ rest) = block ++ [] :: linesOf rest := by
  induction block with
  | nil => exact linesOf_ended List.not_mem_nil
  | cons line others ih =>
      obtain ⟨own, below⟩ := List.forall_mem_cons.mp single
      rw [blockText, List.append_assoc, List.cons_append, linesOf_ended own, ih below, List.cons_append]

/-- A block that breaks off has no blank line. -/
theorem linesOf_cut (single : ∀ line ∈ block, '\n' ∉ line) (filled : [] ∉ block) {count : Nat}
    (short : count < (blockText block).length) : [] ∉ linesOf ((blockText block).take count) := by
  induction block generalizing count with
  | nil =>
      obtain rfl : count = 0 := Nat.lt_one_iff.mp short
      exact List.not_mem_nil
  | cons line others ih =>
      obtain ⟨own, below⟩ := List.forall_mem_cons.mp single
      rw [List.mem_cons, not_or] at filled
      rw [blockText, List.length_append, List.length_cons] at short
      rw [blockText, List.take_append]
      by_cases inside : count ≤ line.length
      · rw [Nat.sub_eq_zero_of_le inside, List.take_zero, List.append_nil]
        by_cases empty : line.take count = []
        · rw [empty]
          exact List.not_mem_nil
        · rw [linesOf_open (fun member => own (List.mem_of_mem_take member)) empty, List.mem_singleton]
          exact Ne.symm empty
      · obtain ⟨later, passed⟩ : ∃ later, count - line.length = later + 1 := ⟨count - line.length - 1, by omega⟩
        rw [List.take_of_length_le (by omega), passed, List.take_succ_cons, linesOf_ended own, List.mem_cons, not_or]
        exact ⟨filled.1, ih below filled.2 (by omega)⟩

end Lines

end Data.EventStream
