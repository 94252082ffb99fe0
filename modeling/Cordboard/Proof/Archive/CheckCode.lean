import Cordboard.Proof.Archive.CheckLoops

namespace Cordboard.ArchiveCheck
open Data
open Archive (ReadFailure)

section
variable (decoder : Decoder) (scanner : Scanner) (version : Version) (paths : List ArchivePath)

/-- A path that cannot be listed gives no file. -/
def filesOf : List File := paths.flatMap fun path => path.entries.getD []

def recordsOf : List Record := recordsFrom 0 (filesOf paths)

/-- The line is not a JSON object with a member `resourceSpans`. -/
def Malformed (line : String) : Prop := ∀ value, decoder.loads line = some value → isEnvelope value = false

/-- Something that the check reads or runs fails. A directory without an archive file cannot be read either. -/
inductive Fails : Prop
  | probe (refused : isPinned version = false)
  | path {path : ArchivePath} (member : path ∈ paths) (nothing : path.entries.getD [] = [])
  | file {file : File} (member : file ∈ filesOf paths) (stopped : file.stream.stop ≠ none)
  | malformed {record : Record} (member : record ∈ recordsOf paths) (bad : Malformed decoder record.text)
  | bytes {record : Record} {value : Json} (member : record ∈ recordsOf paths)
      (loaded : decoder.loads record.text = some value) (bad : Undecodable decoder value)
  | scanner {record : Record} {input : String} (member : record ∈ recordsOf paths)
      (built : scanInput decoder record.text = some input)
      (bad : scanner record input ≠ some 0 ∧ scanner record input ≠ some 1)

/-- All of the archive was read, and the scanner found nothing in the line and the decoded texts of each record. -/
structure Clean (runs : List Run) : Prop where
  listed : ∀ path ∈ paths, ∃ files, path.entries = some files ∧ files ≠ []
  read : ∀ file ∈ filesOf paths, file.stream.stop = none
  filled : recordsOf paths ≠ []
  scanned : ∀ record ∈ recordsOf paths, ∃ value, decoder.loads record.text = some value ∧
    ∃ run ∈ runs, run.record = record ∧ run.code = some 0 ∧ Within record.text run.input ∧
      ∀ text, Carries decoder value text → Within text run.input

/-- The code 0 means a clean archive, a failure gives the code 2, and otherwise a finding gives the code 1. -/
structure Sound (outcome : Except ReadFailure Report) : Prop where
  clean : ∀ report, outcome = .ok report → report.code = 0 → Clean decoder paths report.runs
  failure : Fails decoder scanner version paths → ∃ report, outcome = .ok report ∧ report.code = 2
  finding : ¬ Fails decoder scanner version paths →
    (∃ record ∈ recordsOf paths, ∃ input, scanInput decoder record.text = some input ∧ scanner record input = some 1) →
    ∃ report, outcome = .ok report ∧ report.code = 1

/-- The loops start, and corrupt data of one of the files is reached. -/
def Reached : Prop :=
  isPinned version = true ∧ (∀ path ∈ paths, path.entries.isSome = true) ∧
    ∃ number file, (filesOf paths)[number]? = some file ∧ Corrupted decoder scanner number file

end

section
variable {decoder : Decoder} {scanner : Scanner} {version : Version} {paths : List ArchivePath} {path : ArchivePath}
  {files : List File} {failed : Bool} {tally : Tally} {report : Report} {failure : ReadFailure} {record : Record}
  {line input : String}

theorem scanInput_eq_some_iff : scanInput decoder line = some input ↔
    ∃ value texts, decoder.loads line = some value ∧ isEnvelope value = true ∧ strings decoder value = some texts ∧
      input = line ++ "\n" ++ "\n".intercalate texts := by
  unfold scanInput
  constructor
  · intro built
    obtain ⟨value, loaded, built⟩ := Option.bind_eq_some_iff.mp built
    split at built
    · rename_i envelope
      obtain ⟨texts, read, same⟩ := Option.bind_eq_some_iff.mp built
      exact ⟨value, texts, loaded, envelope, read, (Option.some.inj same).symm⟩
    · cases built
  · rintro ⟨value, texts, loaded, envelope, read, rfl⟩
    rw [loaded]
    show (if isEnvelope value then _ else none) = _
    rw [if_pos envelope, read]
    rfl

/-- A record is answered unless it is malformed, its bytes do not decode, or the scanner fails on it. -/
theorem answered_iff : Answered decoder scanner record ↔ ¬ Malformed decoder record.text ∧
    (∀ value, decoder.loads record.text = some value → ¬ Undecodable decoder value) ∧
    ∀ input, scanInput decoder record.text = some input →
      ¬ (scanner record input ≠ some 0 ∧ scanner record input ≠ some 1) := by
  constructor
  · rintro ⟨input, built, answer⟩
    obtain ⟨value, texts, loaded, envelope, read, _⟩ := scanInput_eq_some_iff.mp built
    refine ⟨?_, ?_, ?_⟩
    · intro malformed
      rw [malformed value loaded] at envelope
      cases envelope
    · intro other again bad
      obtain rfl := Option.some.inj (loaded.symm.trans again)
      rw [strings_none bad] at read
      cases read
    · intro other again bad
      obtain rfl := Option.some.inj (built.symm.trans again)
      exact answer.elim bad.1 bad.2
  · rintro ⟨formed, decodes, answers⟩
    unfold Malformed at formed
    push Not at formed
    obtain ⟨value, loaded, envelope⟩ := formed
    cases read : strings decoder value with
    | none => exact absurd (undecodable_of_none value read) (decodes value loaded)
    | some texts =>
        have built := scanInput_eq_some_iff.mpr ⟨value, texts, loaded, by simpa using envelope, read, rfl⟩
        exact ⟨_, built, by simpa [or_iff_not_imp_left] using answers _ built⟩

/-- Nothing fails when the loops start and all files and records are in order. -/
theorem not_fails_iff : ¬ Fails decoder scanner version paths ↔ isPinned version = true ∧
    (∀ path ∈ paths, path.entries.getD [] ≠ []) ∧ (∀ file ∈ filesOf paths, file.stream.stop = none) ∧
    ∀ record ∈ recordsOf paths, Answered decoder scanner record := by
  constructor
  · intro fine
    refine ⟨?_, ?_, ?_, ?_⟩
    · by_contra refused
      exact fine (.probe (by simpa using refused))
    · exact fun path member nothing => fine (.path member nothing)
    · intro file member
      by_contra stopped
      exact fine (.file member stopped)
    · intro record member
      apply answered_iff.mpr
      refine ⟨?_, ?_, ?_⟩
      · exact fun bad => fine (.malformed member bad)
      · exact fun value loaded bad => fine (.bytes member loaded bad)
      · exact fun input built bad => fine (.scanner member built bad)
  · rintro ⟨pinned, entries, whole, answered⟩ fails
    cases fails with
    | probe refused =>
        rw [pinned] at refused
        cases refused
    | path member nothing => exact entries _ member nothing
    | file member stopped => exact stopped (whole _ member)
    | malformed member bad => exact (answered_iff.mp (answered _ member)).1 bad
    | bytes member loaded bad => exact (answered_iff.mp (answered _ member)).2.1 _ loaded bad
    | scanner member built bad => exact (answered_iff.mp (answered _ member)).2.2 _ built bad

end

section
variable {decoder : Decoder} {scanner : Scanner} {version : Version} {paths : List ArchivePath} {path : ArchivePath}
  {files : List File} {failed : Bool} {tally : Tally} {report : Report} {failure : ReadFailure} {record : Record}

theorem listed_eq_none_iff : listed paths = none ↔ ∃ path ∈ paths, path.entries = none := by
  induction paths with
  | nil => simp [listed]
  | cons path rest ih =>
      rw [listed, List.exists_mem_cons_iff]
      cases own : path.entries with
      | none => simp
      | some entries =>
          rw [← ih]
          cases listed rest <;> simp

/-- The listing gives the files of the paths, and the flag tells of a directory without one. -/
theorem listed_eq_some (done : listed paths = some (files, failed)) : files = filesOf paths ∧
    (failed = false ↔ ∀ path ∈ paths, path.entries.getD [] ≠ []) ∧ ∀ path ∈ paths, path.entries.isSome = true := by
  induction paths generalizing files failed with
  | nil =>
      obtain ⟨rfl, rfl⟩ := Prod.mk.inj (Option.some.inj done)
      simp [filesOf]
  | cons path rest ih =>
      rw [listed] at done
      obtain ⟨entries, own, done⟩ := Option.bind_eq_some_iff.mp done
      obtain ⟨⟨others, empty⟩, later, done⟩ := Option.bind_eq_some_iff.mp done
      obtain ⟨rfl, rfl⟩ := Prod.mk.inj (Option.some.inj done)
      obtain ⟨rfl, flagged, each⟩ := ih later
      refine ⟨?_, ?_, ?_⟩
      · rw [filesOf, filesOf, List.flatMap_cons, own, Option.getD_some]
      · rw [List.forall_mem_cons, own, Option.getD_some, ← flagged, Bool.or_eq_false_iff, List.isEmpty_eq_false_iff]
      · exact List.forall_mem_cons.mpr ⟨by rw [own, Option.isSome_some], each⟩

/-- The check raises just when it reaches corrupt data. -/
theorem check_error_iff : check decoder scanner version paths = .error failure ↔
    failure = .zlib ∧ Reached decoder scanner version paths := by
  unfold check Reached
  by_cases pinned : isPinned version = true
  · rw [if_pos pinned]
    cases done : listed paths with
    | none =>
        obtain ⟨path, member, nothing⟩ := listed_eq_none_iff.mp done
        constructor
        · intro same
          cases same
        · rintro ⟨_, _, each, _⟩
          have some_ := each path member
          rw [nothing] at some_
          cases some_
    | some pair =>
        obtain ⟨files, failed⟩ := pair
        obtain ⟨rfl, _, each⟩ := listed_eq_some done
        have loops := @checkFiles_error decoder scanner ⟨false, failed, 0, []⟩ failure 0 (filesOf paths)
        simp only [Nat.zero_add] at loops
        show (checkFiles decoder scanner 0 (filesOf paths) ⟨false, failed, 0, []⟩ >>= fun tally => .ok tally.report) =
          .error failure ↔ _
        rw [eq_true pinned, eq_true each, true_and, true_and, ← loops]
        cases checkFiles decoder scanner 0 (filesOf paths) ⟨false, failed, 0, []⟩ with
        | error other =>
            constructor
            · intro same
              obtain rfl := Except.error.inj same
              rfl
            · intro same
              obtain rfl := Except.error.inj same
              rfl
        | ok tally =>
            constructor
            · intro same
              cases same
            · intro same
              cases same
  · rw [if_neg pinned]
    constructor
    · intro same
      cases same
    · exact fun reached => absurd reached.2.1 pinned

/-- The counts of the check start from nothing. -/
theorem faithful_start : Faithful decoder scanner ⟨false, failed, 0, []⟩ where
  found := by simp
  records := rfl
  genuine run member := by cases member

/-- The report comes from a tally that fails just when something fails, and that else has a run for each record. -/
theorem check_ok (done : check decoder scanner version paths = .ok report) : ∃ tally, report = tally.report ∧
    Faithful decoder scanner tally ∧ (tally.failed = false ↔ ¬ Fails decoder scanner version paths) ∧
    (tally.failed = false → tally.runs.map Run.record = recordsOf paths) := by
  rw [not_fails_iff]
  unfold check at done
  by_cases pinned : isPinned version = true
  · rw [if_pos pinned] at done
    cases listing : listed paths with
    | none =>
        obtain ⟨path, member, nothing⟩ := listed_eq_none_iff.mp listing
        rw [listing] at done
        obtain rfl := Except.ok.inj done
        refine ⟨_, rfl, faithful_start, ?_, ?_⟩
        · simp only [Bool.true_eq_false, false_iff]
          rintro ⟨_, entries, _⟩
          apply entries path member
          rw [nothing, Option.getD_none]
        · intro clean
          cases clean
    | some pair =>
        obtain ⟨files, failed⟩ := pair
        obtain ⟨rfl, flagged, _⟩ := listed_eq_some listing
        rw [listing] at done
        obtain ⟨tally, loops, same⟩ := bind_ok.mp done
        obtain rfl := Except.ok.inj same
        have scanned := checkFiles_scanned loops
        refine ⟨tally, rfl, scanned.faithful faithful_start, ?_, ?_⟩
        · rw [scanned.failed, ← flagged, eq_true pinned, true_and]
          rfl
        · exact fun clean => scanned.runs clean
  · rw [if_neg pinned] at done
    obtain rfl := Except.ok.inj done
    refine ⟨_, rfl, faithful_start, ?_, ?_⟩
    · simp [pinned]
    · intro clean
      cases clean

/-- The code 2 tells of a failure. -/
theorem Tally.report_failed (failed : tally.failed = true) : tally.report.code = 2 := by simp [Tally.report, failed]

/-- The code 0 tells of records without a failure and without a finding. -/
theorem Tally.report_zero (zero : tally.report.code = 0) :
    tally.failed = false ∧ tally.records ≠ 0 ∧ tally.found = false := by
  unfold Tally.report at zero
  by_cases failed : (tally.failed || tally.records == 0) = true
  · simp [failed] at zero
  · cases found : tally.found with
    | true => simp [failed, found] at zero
    | false => simpa using failed

/-- Each record of a tally that does not fail has its own run of the scanner. -/
theorem exists_run (faithful : Faithful decoder scanner tally) (all : tally.runs.map Run.record = recordsOf paths)
    (member : record ∈ recordsOf paths) : ∃ run ∈ tally.runs, run.record = record ∧
      scanInput decoder record.text = some run.input ∧ run.code = scanner record run.input := by
  rw [← all] at member
  obtain ⟨run, inside, rfl⟩ := List.mem_map.mp member
  obtain ⟨built, answer⟩ := faithful.genuine run inside
  exact ⟨run, inside, rfl, built, answer⟩

/-- A run with an exit code is counted. -/
theorem Faithful.counted (faithful : Faithful decoder scanner tally) {run : Run} {code : Int}
    (inside : run ∈ tally.runs) (answer : run.code = some code) : tally.records ≠ 0 := by
  rw [faithful.records]
  have some_ : run.code.isSome = true := by rw [answer, Option.isSome_some]
  have positive : 0 < tally.runs.countP fun run => run.code.isSome := List.countP_pos_iff.mpr ⟨run, inside, some_⟩
  omega

/-- The input of the scanner has the line and each text of its record. -/
theorem scanInput_within {line input : String} (built : scanInput decoder line = some input) :
    ∃ value, decoder.loads line = some value ∧ Within line input ∧
      ∀ text, Carries decoder value text → Within text input := by
  obtain ⟨value, texts, loaded, _, read, rfl⟩ := scanInput_eq_some_iff.mp built
  refine ⟨value, loaded, ?_, ?_⟩
  · exact within_append_left (within_append_left List.infix_rfl)
  · intro text carries
    exact within_append_right (within_intercalate (strings_complete carries read))

/-- The code 0 means that all of the archive was scanned and is clean. -/
theorem clean_of_zero (done : check decoder scanner version paths = .ok report) (zero : report.code = 0) :
    Clean decoder paths report.runs := by
  obtain ⟨tally, rfl, faithful, fails, runs⟩ := check_ok done
  obtain ⟨failed, records, found⟩ := Tally.report_zero zero
  obtain ⟨_, entries, whole, answered⟩ := not_fails_iff.mp (fails.mp failed)
  have all := runs failed
  constructor
  · intro path member
    have some_ := entries path member
    cases own : path.entries with
    | none => exact absurd (by rw [own, Option.getD_none]) some_
    | some files => exact ⟨files, rfl, by rwa [own, Option.getD_some] at some_⟩
  · exact whole
  · intro nothing
    rw [nothing, List.map_eq_nil_iff] at all
    rw [faithful.records, all] at records
    exact records rfl
  · intro record member
    obtain ⟨run, inside, same, built, answer⟩ := exists_run faithful all member
    obtain ⟨value, loaded, line, texts⟩ := scanInput_within built
    refine ⟨value, loaded, run, inside, same, ?_, line, texts⟩
    obtain ⟨input, again, code⟩ := answered record member
    obtain rfl := Option.some.inj (built.symm.trans again)
    rcases code with clean | finding
    · rw [answer, clean]
    · -- A finding would have set the flag.
      have flagged := faithful.found.mpr ⟨run, inside, answer.trans finding⟩
      rw [found] at flagged
      cases flagged

/-- A check that fails returns the code 2. -/
theorem two_of_fails (done : check decoder scanner version paths = .ok report)
    (bad : Fails decoder scanner version paths) : report.code = 2 := by
  obtain ⟨tally, rfl, _, fails, _⟩ := check_ok done
  apply Tally.report_failed
  by_contra clean
  exact fails.mp (by simpa using clean) bad

/-- A finding of a check that does not fail gives the code 1. -/
theorem one_of_finding {input : String} (done : check decoder scanner version paths = .ok report)
    (fine : ¬ Fails decoder scanner version paths) (member : record ∈ recordsOf paths)
    (built : scanInput decoder record.text = some input) (finding : scanner record input = some 1) :
    report.code = 1 := by
  obtain ⟨tally, rfl, faithful, fails, runs⟩ := check_ok done
  have failed := fails.mpr fine
  obtain ⟨run, inside, _, again, answer⟩ := exists_run faithful (runs failed) member
  obtain rfl := Option.some.inj (built.symm.trans again)
  rw [finding] at answer
  have found := faithful.found.mpr ⟨run, inside, answer⟩
  have counted := faithful.counted inside answer
  simp [Tally.report, failed, found, counted]

/-- A check that neither fails nor finds anything gives the code 0. -/
theorem zero_of_quiet (done : check decoder scanner version paths = .ok report)
    (fine : ¬ Fails decoder scanner version paths) (filled : recordsOf paths ≠ [])
    (quiet : ∀ record ∈ recordsOf paths, ∀ input, scanner record input ≠ some 1) : report.code = 0 := by
  obtain ⟨tally, rfl, faithful, fails, runs⟩ := check_ok done
  have failed := fails.mpr fine
  have all := runs failed
  have found : tally.found = false := by
    by_contra flagged
    obtain ⟨run, inside, finding⟩ := faithful.found.mp (by simpa using flagged)
    have member : run.record ∈ recordsOf paths := all ▸ List.mem_map_of_mem inside
    exact quiet _ member _ ((faithful.genuine run inside).2 ▸ finding)
  obtain ⟨record, member⟩ := List.exists_mem_of_ne_nil _ filled
  obtain ⟨run, inside, _, built, answer⟩ := exists_run faithful all member
  obtain ⟨input, again, code⟩ := (not_fails_iff.mp fine).2.2.2 record member
  obtain rfl := Option.some.inj (built.symm.trans again)
  have clean : scanner record run.input = some 0 := code.resolve_right (quiet record member _)
  have counted := faithful.counted inside (answer.trans clean)
  simp [Tally.report, failed, found, counted]

/-- Corrupt data that is reached is a failure. -/
theorem fails_of_reached (reached : Reached decoder scanner version paths) : Fails decoder scanner version paths := by
  obtain ⟨_, _, number, file, at_, stopped, _⟩ := reached
  apply Fails.file (List.mem_of_getElem? at_)
  rw [stopped]
  exact Option.some_ne_none _

/-- The check is sound just when it does not reach data that `zlib` cannot unpack. -/
theorem check_sound (decoder : Decoder) (scanner : Scanner) (version : Version) (paths : List ArchivePath) :
    Sound decoder scanner version paths (check decoder scanner version paths) ↔
      ¬ Reached decoder scanner version paths := by
  constructor
  · intro sound reached
    obtain ⟨report, done, _⟩ := sound.failure (fails_of_reached reached)
    rw [check_error_iff.mpr ⟨rfl, reached⟩] at done
    cases done
  · intro unreached
    have returns : ∃ report, check decoder scanner version paths = .ok report := by
      cases outcome : check decoder scanner version paths with
      | error failure => exact absurd (check_error_iff.mp outcome).2 unreached
      | ok report => exact ⟨report, rfl⟩
    obtain ⟨report, done⟩ := returns
    constructor
    · exact fun other same zero => clean_of_zero same zero
    · exact fun bad => ⟨report, done, two_of_fails done bad⟩
    · rintro fine ⟨record, member, input, built, finding⟩
      exact ⟨report, done, one_of_finding done fine member built finding⟩

end

/-- The pinned scanner tells its version. -/
def pinned : Version := some (0, "redact-secret 0.1.0-beta.1\n".toUTF8.data.toList)

/-- The header of this file is that of `gzip`, and its first block has no valid type. -/
def corruptFile : File := ⟨"archive-2026-09-10.otlp.jsonl.gz", ⟨[], some .unicode⟩, ⟨[], some .zlib⟩⟩

/-- The check of one corrupt file raises although the file is unreadable. -/
theorem corrupt_file_raises : ¬ Sound ⟨fun _ => none, fun _ => none⟩ (fun _ _ => some 0) pinned [.file corruptFile]
    (check ⟨fun _ => none, fun _ => none⟩ (fun _ _ => some 0) pinned [.file corruptFile]) := by
  intro sound
  have reached : Reached ⟨fun _ => none, fun _ => none⟩ (fun _ _ => some 0) pinned [.file corruptFile] := by
    refine ⟨by decide, ?_, 0, corruptFile, rfl, by decide, ?_⟩
    · exact List.forall_mem_singleton.mpr rfl
    · intro record member
      cases member
  obtain ⟨report, done, _⟩ := sound.failure (fails_of_reached reached)
  rw [check_error_iff.mpr ⟨rfl, reached⟩] at done
  cases done

end Cordboard.ArchiveCheck
