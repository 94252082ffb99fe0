import Cordboard.Data.Outcome
import Cordboard.Proof.Archive.RecordTexts

namespace Cordboard.ArchiveCheck
open Data
open Archive (ReadFailure Stream decodeUtf8)

section
variable (decoder : Decoder) (scanner : Scanner)

/-- The record is well formed, and its run of the scanner gives a code that `check` knows. -/
def Answered (record : Record) : Prop :=
  ∃ input, scanInput decoder record.text = some input ∧ (scanner record input = some 0 ∨ scanner record input = some 1)

/-- Nothing raises at the record. -/
def Passes (record : Record) : Prop :=
  ∃ input, scanInput decoder record.text = some input ∧ (scanner record input).isSome

/-- The flag and the count tell what the runs of the scanner gave. -/
structure Faithful (tally : Tally) : Prop where
  found : tally.found = true ↔ ∃ run ∈ tally.runs, run.code = some 1
  records : tally.records = tally.runs.countP fun run => run.code.isSome
  genuine : ∀ run ∈ tally.runs, scanInput decoder run.record.text = some run.input ∧
    run.code = scanner run.record run.input

/-- A piece of the loops adds one run for each of its records, or else it fails. -/
structure Scanned (whole : Prop) (records : List Record) (before after : Tally) : Prop where
  failed : after.failed = false ↔ before.failed = false ∧ whole ∧ ∀ record ∈ records, Answered decoder scanner record
  runs : after.failed = false → after.runs.map Run.record = before.runs.map Run.record ++ records
  faithful : Faithful decoder scanner before → Faithful decoder scanner after

/-- The records of the files in the order of the loops. -/
def recordsFrom : Nat → List File → List Record
  | _, [] => []
  | number, file :: rest => file.records number ++ recordsFrom (number + 1) rest

/-- The corrupt data of a file is reached when nothing raises before it. -/
def Corrupted (number : Nat) (file : File) : Prop :=
  file.stream.stop = some .zlib ∧ ∀ record ∈ file.records number, Passes decoder scanner record

end

section
variable {decoder : Decoder} {scanner : Scanner} {record : Record} {records others : List Record} {input : String}
  {before middle after : Tally} {whole rest : Prop} {stop : Option ReadFailure} {failure : ReadFailure} {number : Nat}
  {files : List File}

theorem Scanned.refl : Scanned decoder scanner True [] before before where
  failed := by simp
  runs _ := (List.append_nil _).symm
  faithful := id

theorem Scanned.append (first : Scanned decoder scanner whole records before middle)
    (second : Scanned decoder scanner rest others middle after) :
    Scanned decoder scanner (whole ∧ rest) (records ++ others) before after where
  failed := by
    rw [second.failed, first.failed, List.forall_mem_append]
    tauto
  runs clean := by
    have earlier := (second.failed.mp clean).1
    rw [second.runs clean, first.runs earlier, List.append_assoc]
  faithful start := second.faithful (first.faithful start)

/-- A piece that fails says nothing about the runs. -/
theorem Scanned.broken (failed : after.failed = true)
    (bad : ¬ (whole ∧ ∀ record ∈ records, Answered decoder scanner record))
    (faithful : Faithful decoder scanner before → Faithful decoder scanner after) :
    Scanned decoder scanner whole records before after where
  failed := by
    rw [failed]
    constructor
    · intro clean
      cases clean
    · exact fun good => absurd good.2 bad
  runs clean := by
    rw [failed] at clean
    cases clean
  faithful := faithful

theorem Faithful.fail (faithful : Faithful decoder scanner before) : Faithful decoder scanner before.fail :=
  ⟨faithful.found, faithful.records, faithful.genuine⟩

/-- The answer of the scanner is noted as it is. -/
theorem Faithful.note (faithful : Faithful decoder scanner before)
    (built : scanInput decoder record.text = some input) :
    Faithful decoder scanner (before.note ⟨record, input, scanner record input⟩) := by
  have runs : (before.note ⟨record, input, scanner record input⟩).runs =
      before.runs ++ [⟨record, input, scanner record input⟩] := by
    unfold Tally.note
    cases scanner record input <;> rfl
  constructor
  · have some_ : (∃ run ∈ before.runs ++ [⟨record, input, scanner record input⟩], run.code = some 1) ↔
        before.found = true ∨ scanner record input = some 1 := by
      rw [faithful.found]
      simp [or_and_right, exists_or]
    rw [runs, some_]
    unfold Tally.note
    cases scanner record input with
    | none => simp
    | some code => simp
  · rw [runs, List.countP_append, ← faithful.records]
    unfold Tally.note
    cases scanner record input <;> rfl
  · rw [runs]
    intro run member
    rcases List.mem_append.mp member with earlier | last
    · exact faithful.genuine run earlier
    · obtain rfl := List.mem_singleton.mp last
      exact ⟨built, rfl⟩

/-- One run of the scanner is one piece of the loops. -/
theorem scanned_note (built : scanInput decoder record.text = some input) :
    Scanned decoder scanner True [record] before (before.note ⟨record, input, scanner record input⟩) where
  failed := by
    have own : Answered decoder scanner record ↔ scanner record input = some 0 ∨ scanner record input = some 1 := by
      simp [Answered, built]
    rw [List.forall_mem_singleton, own]
    unfold Tally.note
    cases scanner record input with
    | none => simp
    | some code =>
        simp only [Bool.or_eq_false_iff, Bool.not_eq_false', Bool.or_eq_true, beq_iff_eq, Option.some.injEq, true_and]
  runs _ := by
    unfold Tally.note
    cases scanner record input <;> simp
  faithful start := start.note built

/-- The loop over the records of one file scans them all, or else it fails. -/
theorem checkRecords_scanned (done : checkRecords decoder scanner records stop before = .ok after) :
    Scanned decoder scanner (stop = none) records before after := by
  induction records generalizing before with
  | nil =>
      cases stop with
      | none =>
          obtain rfl := Except.ok.inj done
          simpa using Scanned.refl
      | some failure =>
          have failed : after = before.fail := by
            cases failure with
            | zlib => cases done
            | os => exact (Except.ok.inj done).symm
            | eof => exact (Except.ok.inj done).symm
            | unicode => exact (Except.ok.inj done).symm
          rw [failed]
          apply Scanned.broken rfl _ Faithful.fail
          rintro ⟨ended, _⟩
          cases ended
  | cons record rest ih =>
      rw [checkRecords] at done
      cases built : scanInput decoder record.text with
      | none =>
          rw [built] at done
          obtain rfl := Except.ok.inj done
          apply Scanned.broken rfl _ Faithful.fail
          intro good
          obtain ⟨input, same, _⟩ := good.2 record List.mem_cons_self
          rw [built] at same
          cases same
      | some input =>
          simp only [built] at done
          have step : Scanned decoder scanner True [record] before _ := scanned_note built
          by_cases raised : (scanner record input).isSome = true
          · rw [if_pos raised] at done
            simpa using step.append (ih done)
          · rw [if_neg raised] at done
            obtain rfl := Except.ok.inj done
            have none_ : scanner record input = none := by simpa using raised
            apply Scanned.broken _ _ step.faithful
            · rw [Tally.note, none_]
            · intro good
              obtain ⟨other, same, answer⟩ := good.2 record List.mem_cons_self
              obtain rfl := Option.some.inj (built.symm.trans same)
              rw [none_] at answer
              simp at answer

/-- The loop over the records raises at corrupt data, and nowhere else. -/
theorem checkRecords_error : checkRecords decoder scanner records stop before = .error failure ↔
    failure = .zlib ∧ stop = some .zlib ∧ ∀ record ∈ records, Passes decoder scanner record := by
  induction records generalizing before with
  | nil =>
      cases stop with
      | none => simp [checkRecords]
      | some kind => cases kind <;> simp [checkRecords, eq_comm]
  | cons record rest ih =>
      rw [checkRecords, List.forall_mem_cons]
      cases built : scanInput decoder record.text with
      | none => simp [Passes, built]
      | some input =>
          have own : Passes decoder scanner record ↔ (scanner record input).isSome = true := by simp [Passes, built]
          rw [own]
          by_cases raised : (scanner record input).isSome = true
          · simp only [raised, if_true, true_and]
            exact ih
          · simp [raised]

/-- The loop over the files scans all of their records, or else it fails. -/
theorem checkFiles_scanned (done : checkFiles decoder scanner number files before = .ok after) :
    Scanned decoder scanner (∀ file ∈ files, file.stream.stop = none) (recordsFrom number files) before after := by
  induction files generalizing number before with
  | nil =>
      obtain rfl := Except.ok.inj done
      simpa [recordsFrom] using Scanned.refl
  | cons file rest ih =>
      obtain ⟨middle, first, later⟩ := bind_ok.mp done
      rw [List.forall_mem_cons, recordsFrom]
      exact (checkRecords_scanned first).append (ih later)

/-- The loop over the files raises when it reaches corrupt data, and nowhere else. -/
theorem checkFiles_error : checkFiles decoder scanner number files before = .error failure ↔
    failure = .zlib ∧ ∃ index file, files[index]? = some file ∧ Corrupted decoder scanner (number + index) file := by
  induction files generalizing number before with
  | nil => simp [checkFiles]
  | cons file rest ih =>
      rw [checkFiles]
      cases first : checkRecords decoder scanner (file.records number) file.stream.stop before with
      | error other =>
          obtain ⟨rfl, own⟩ := checkRecords_error.mp first
          constructor
          · intro same
            obtain rfl := Except.error.inj same
            exact ⟨rfl, 0, file, rfl, own⟩
          · rintro ⟨rfl, _⟩
            rfl
      | ok middle =>
          have clean : ¬ Corrupted decoder scanner number file := by
            intro corrupt
            rw [checkRecords_error.mpr ⟨rfl, corrupt⟩] at first
            cases first
          have later : (∃ index entry, (file :: rest)[index]? = some entry ∧
                Corrupted decoder scanner (number + index) entry) ↔
              ∃ index entry, rest[index]? = some entry ∧ Corrupted decoder scanner (number + 1 + index) entry := by
            constructor
            · rintro ⟨index, entry, at_, corrupt⟩
              cases index with
              | zero =>
                  obtain rfl := Option.some.inj at_
                  exact absurd corrupt clean
              | succ index =>
                  refine ⟨index, entry, at_, ?_⟩
                  rwa [Nat.add_assoc, Nat.add_comm 1 index]
            · rintro ⟨index, entry, at_, corrupt⟩
              refine ⟨index + 1, entry, at_, ?_⟩
              rwa [Nat.add_comm index 1, ← Nat.add_assoc]
          rw [later]
          exact ih

end

end Cordboard.ArchiveCheck
