import Cordboard.Proof.Archive.Below
import Cordboard.Proof.Archive.ClosedHealth

namespace Cordboard.Archive
open Data

section
variable (codec : Codec)

/-- The lines of a file that end with a newline. A line of a plain file may fail to decode. -/
def completeLines (file : ArchiveFile) : List (Option String) :=
  if file.closed then ((codec.gunzip file.bytes).lines.filter fun line => line.toList.getLast? = some '\n').map some
  else ((rawLines file.bytes).filter fun raw => raw.getLast? = some 10).map decodeUtf8

/-- The reader takes one line after the spans that came before. -/
def takeLine (spans : SpanMap) (line : Option String) : Checked SpanMap := do
  let record ← match line with
    | some text => load codec text
    | none => .error .unicode
  readRecord "" spans record

/-- A line with its newline is not JSON, or it violates the span contract after the lines before it. -/
def Corrupt (files : List ArchiveFile) : Prop :=
  ∃ earlier line later spans, files.flatMap (completeLines codec) = earlier ++ line :: later ∧
    earlier.foldlM (takeLine codec) SpanMap.empty = .ok spans ∧ ∀ next, takeLine codec spans line ≠ .ok next

/-- The last line of a plain file does not load although it has its newline. -/
def Concealed (file : ArchiveFile) : Prop :=
  file.closed = false ∧ (file.stream codec).stop = none ∧ ∃ raw text, (rawLines file.bytes).getLast? = some raw ∧
    raw.getLast? = some 10 ∧ decodeUtf8 raw = some text ∧ codec.loads text = none

/-- The last line of a plain file does not load. -/
def aside (file : ArchiveFile) : Bool :=
  !file.closed && (file.stream codec).lines.getLast?.any fun last => (codec.loads last).isNone

/-- The lines of a file without the last line that is set aside. -/
def remaining (file : ArchiveFile) : List String :=
  if aside codec file then (file.stream codec).lines.dropLast else (file.stream codec).lines

/-- Corruption is reported, and only a line without its newline is set aside. -/
structure Reported (files : List ArchiveFile) : Prop where
  failed : Corrupt codec files → ∃ health, archiveHealth codec files = .ok health ∧ health.status = .failed
  unfinished : ∀ file ∈ files, ∀ lines, visibleLines codec file = .ok (lines, true) →
    ∀ raw, (rawLines file.bytes).getLast? = some raw → raw.getLast? ≠ some 10

end

section
variable {codec : Codec} {file : ArchiveFile} {files : List ArchiveFile}

/-- The decoded lines stand in the order of the raw lines. -/
theorem map_of_mapM {A B : Type} {decode : A → Option B} {items : List A} {values : List B}
    (done : items.mapM decode = some values) : items.map decode = values.map some := by
  induction items generalizing values with
  | nil =>
      obtain rfl := Option.some.inj done
      rfl
  | cons item rest ih =>
      rw [List.mapM_cons] at done
      obtain ⟨first, own, later⟩ := Option.bind_eq_some_iff.mp done
      obtain ⟨others, read, same⟩ := Option.bind_eq_some_iff.mp later
      obtain rfl := Option.some.inj same
      rw [List.map_cons, List.map_cons, own, ih read]

/-- A plain file that can be read gives its decoded lines. -/
theorem plain_lines (plain : file.closed = false) (ended : (file.stream codec).stop = none) :
    (rawLines file.bytes).map decodeUtf8 = (file.stream codec).lines.map some := by
  unfold ArchiveFile.stream at ended ⊢
  rw [plain] at ended ⊢
  simp only [Bool.false_eq_true, if_false] at ended ⊢
  cases decoded : (rawLines file.bytes).mapM decodeUtf8 with
  | none =>
      rw [decoded] at ended
      cases ended
  | some lines => exact map_of_mapM decoded

/-- A readable file shows the lines that remain, and the flag says whether a line was set aside. -/
theorem visible_ended (ended : (file.stream codec).stop = none) :
    visibleLines codec file = .ok (remaining codec file, aside codec file) := by
  unfold visibleLines remaining aside
  dsimp only
  rw [ended]
  cases file.closed with
  | true => rfl
  | false =>
      dsimp only
      cases (file.stream codec).lines.getLast? with
      | none => rfl
      | some last =>
          cases loaded : codec.loads last with
          | none => simp [loaded]
          | some value => simp [loaded]

theorem aside_of_visible {lines : List String} (shown : visibleLines codec file = .ok (lines, true)) :
    (file.stream codec).stop = none ∧ aside codec file = true := by
  cases stop : (file.stream codec).stop with
  | some failure =>
      rw [visible_stopped stop] at shown
      cases shown
  | none =>
      rw [visible_ended stop] at shown
      exact ⟨rfl, (Prod.mk.inj (Except.ok.inj shown)).2⟩

/-- The last decoded line belongs to the last raw line. -/
theorem last_raw (plain : file.closed = false) (ended : (file.stream codec).stop = none) {raw : List UInt8}
    (last : (rawLines file.bytes).getLast? = some raw) :
    ∃ text, (file.stream codec).lines.getLast? = some text ∧ decodeUtf8 raw = some text := by
  have same := congrArg List.getLast? (plain_lines plain ended)
  rw [List.getLast?_map, List.getLast?_map, last, Option.map_some] at same
  obtain ⟨text, own, decoded⟩ := Option.map_eq_some_iff.mp same.symm
  exact ⟨text, own, decoded.symm⟩

/-- A line that is set aside does not load. -/
theorem aside_iff : aside codec file = true ↔
    file.closed = false ∧ ∃ last, (file.stream codec).lines.getLast? = some last ∧ codec.loads last = none := by
  simp [aside, Option.any_eq_true]

/-- The complete lines of a file that conceals none of them remain. -/
theorem complete_sublist (ended : (file.stream codec).stop = none) (open_ : ¬ Concealed codec file) :
    (completeLines codec file).Sublist ((remaining codec file).map some) := by
  unfold completeLines
  cases closed : file.closed with
  | true =>
      have own : file.stream codec = codec.gunzip file.bytes := if_pos closed
      have all : remaining codec file = (codec.gunzip file.bytes).lines := by simp [remaining, aside, closed, own]
      rw [if_pos rfl, all]
      exact List.filter_sublist.map _
  | false =>
      have lines := plain_lines closed ended
      rw [if_neg Bool.false_ne_true, remaining]
      split
      · -- The line that is set aside has no newline, so the filter has dropped it as well.
        rename_i dropped
        obtain ⟨_, text, last, refused⟩ := aside_iff.mp dropped
        rcases List.eq_nil_or_concat (rawLines file.bytes) with empty | ⟨init, raw, raws⟩
        · rw [empty] at lines
          rw [List.map_eq_nil_iff.mp lines.symm] at last
          cases last
        · have newest : (rawLines file.bytes).getLast? = some raw := by simp [raws]
          obtain ⟨other, tail, decoded⟩ := last_raw closed ended newest
          obtain rfl := Option.some.inj (last.symm.trans tail)
          have torn : raw.getLast? ≠ some 10 := fun newline =>
            open_ ⟨closed, ended, raw, text, newest, newline, decoded, refused⟩
          have kept : (file.stream codec).lines.dropLast.map some = init.map decodeUtf8 := by
            rw [List.map_dropLast, ← lines, raws, List.concat_eq_append, List.map_append, List.map_singleton,
              List.dropLast_concat]
          have filtered : (rawLines file.bytes).filter (fun raw => raw.getLast? = some 10) =
              init.filter fun raw => raw.getLast? = some 10 := by
            simp [raws, torn]
          rw [filtered, kept]
          exact List.filter_sublist.map _
      · rw [← lines]
        exact List.filter_sublist.map _

/-- These are the values that `json.loads` returns. An object has each of its members once. -/
def Codec.Proper (codec : Codec) : Prop := ∀ text value, codec.loads text = some value → value.proper = true

section
variable {spans others upper : SpanMap}

theorem load_proper (proper : codec.Proper) {text : String} {record : Json} (done : load codec text = .ok record) :
    record.proper = true := by
  unfold load at done
  cases loaded : codec.loads text with
  | none =>
      rw [loaded] at done
      cases done
  | some value =>
      rw [loaded] at done
      obtain rfl := Except.ok.inj done
      exact proper text value loaded

/-- A smaller map takes some of the lines that a larger map takes. -/
theorem below_lines (proper : codec.Proper) {number line : Nat} {texts : List String} {taken : List (Option String)}
    (below : Below spans others) (done : readLines number line (texts.map (load codec)) others = .ok upper)
    (inside : taken.Sublist (texts.map some)) :
    ∃ next, taken.foldlM (takeLine codec) spans = .ok next ∧ Below next upper := by
  induction texts generalizing line taken spans others with
  | nil =>
      obtain ⟨_, _, later⟩ := bind_ok.mp done
      obtain rfl := Except.ok.inj later
      obtain rfl := List.sublist_nil.mp inside
      exact ⟨spans, rfl, below⟩
  | cons text rest ih =>
      obtain ⟨middle, read, later⟩ := bind_ok.mp done
      obtain ⟨record, loaded, read⟩ := bind_ok.mp (located_ok.mp read)
      have own := load_proper proper loaded
      cases inside with
      | cons _ fewer => exact ih (below.skip own read) later fewer
      | cons_cons _ fewer =>
          obtain ⟨next, first, kept⟩ := @Below.readRecord spans others middle "" _ record below own read
          obtain ⟨final, ended, last⟩ := ih kept later fewer
          refine ⟨final, ?_, last⟩
          rw [List.foldlM_cons]
          exact bind_ok.mpr ⟨next, bind_ok.mpr ⟨record, loaded, first⟩, ended⟩

theorem below_files (proper : codec.Proper) {number : Nat} {texts : List (List String)} {taken : List (Option String)}
    (below : Below spans others)
    (done : readFiles number (texts.map fun lines => lines.map (load codec)) others = .ok upper)
    (inside : taken.Sublist (texts.flatten.map some)) :
    ∃ next, taken.foldlM (takeLine codec) spans = .ok next ∧ Below next upper := by
  induction texts generalizing number taken spans others with
  | nil =>
      obtain rfl := Except.ok.inj done
      obtain rfl := List.sublist_nil.mp inside
      exact ⟨spans, rfl, below⟩
  | cons lines rest ih =>
      obtain ⟨middle, read, later⟩ := bind_ok.mp done
      rw [List.flatten_cons, List.map_append] at inside
      obtain ⟨first, second, rfl, one, two⟩ := List.sublist_append_iff.mp inside
      obtain ⟨next, begun, kept⟩ := below_lines proper below read one
      obtain ⟨final, ended, last⟩ := ih kept later two
      refine ⟨final, ?_, last⟩
      rw [List.foldlM_append]
      exact bind_ok.mpr ⟨next, begun, ended⟩

end

/-- The reader of a corrupt archive does not take all its complete lines. -/
theorem Corrupt.refused (corrupt : Corrupt codec files) {spans : SpanMap} :
    (files.flatMap (completeLines codec)).foldlM (takeLine codec) SpanMap.empty ≠ .ok spans := by
  obtain ⟨earlier, line, later, before, whole, first, broken⟩ := corrupt
  intro done
  rw [whole, List.foldlM_append] at done
  obtain ⟨middle, read, rest⟩ := bind_ok.mp done
  obtain rfl := Except.ok.inj (first.symm.trans read)
  rw [List.foldlM_cons] at rest
  obtain ⟨next, taken, _⟩ := bind_ok.mp rest
  exact broken next taken

theorem visible_map (ended : ∀ file ∈ files, (file.stream codec).stop = none) : files.mapM (visibleLines codec) =
    .ok (files.map fun file => (remaining codec file, aside codec file)) := by
  induction files with
  | nil => rfl
  | cons file rest ih =>
      obtain ⟨own, others⟩ := List.forall_mem_cons.mp ended
      rw [List.mapM_cons, visible_ended own, ih others]
      rfl

/-- The complete lines of all files remain when no file conceals one of them. -/
theorem complete_files (ended : ∀ file ∈ files, (file.stream codec).stop = none)
    (open_ : ∀ file ∈ files, ¬ Concealed codec file) :
    (files.flatMap (completeLines codec)).Sublist ((files.map (remaining codec)).flatten.map some) := by
  induction files with
  | nil => exact .slnil
  | cons file rest ih =>
      obtain ⟨own, others⟩ := List.forall_mem_cons.mp ended
      obtain ⟨shown, later⟩ := List.forall_mem_cons.mp open_
      rw [List.flatMap_cons, List.map_cons, List.flatten_cons, List.map_append]
      exact (complete_sublist own shown).append (ih others later)

/-- Corruption is reported when the files can be read and none of them conceals a line. -/
theorem failed_of_corrupt (proper : codec.Proper) (ended : ∀ file ∈ files, (file.stream codec).stop = none)
    (open_ : ∀ file ∈ files, ¬ Concealed codec file) (corrupt : Corrupt codec files) :
    ∃ health, archiveHealth codec files = .ok health ∧ health.status = .failed := by
  have complete := complete_files ended open_
  have shown := visible_map ended
  have first : (files.map fun file => (remaining codec file, aside codec file)).map Prod.fst =
      files.map (remaining codec) := by
    rw [List.map_map]
    rfl
  have some_ : files.flatMap (completeLines codec) ≠ [] := by
    obtain ⟨earlier, line, later, _, whole, _⟩ := corrupt
    rw [whole]
    exact List.append_ne_nil_of_right_ne_nil _ (List.cons_ne_nil _ _)
  have lines : ((files.map (remaining codec)).filter fun lines => !lines.isEmpty) ≠ [] := by
    intro empty
    rw [← List.flatten_filter_not_isEmpty, empty] at complete
    exact some_ (List.sublist_nil.mp complete)
  have files_ : files ≠ [] := by
    rintro rfl
    exact some_ rfl
  rw [← first] at lines
  rcases health_of_visible files_ shown lines with ⟨spans, done, _⟩ | ⟨reason, _, health⟩
  · obtain ⟨upper, read, _⟩ := bind_ok.mp done
    rw [← List.flatten_filter_not_isEmpty, ← first] at complete
    obtain ⟨next, taken, _⟩ := below_files proper below_empty read complete
    exact absurd taken corrupt.refused
  · exact ⟨_, health, rfl⟩

end

section Example

theorem sampleCodec_proper : sampleCodec.Proper := by
  intro text value loaded
  simp only [sampleCodec, Option.ite_none_right_eq_some, Option.some.injEq] at loaded
  rw [← loaded.2]
  decide

/-- The append of a line is still in progress. -/
def unfinishedFile : ArchiveFile := ⟨"a.otlp.jsonl", false, [123, 111, 111, 112, 115]⟩

/-- The same line with its newline is corrupt. -/
def corruptFile : ArchiveFile := ⟨"a.otlp.jsonl", false, [123, 111, 111, 112, 115, 10]⟩

end Example

end Cordboard.Archive
