import Cordboard.Construction.Archive.Health
import Cordboard.Proof.Archive.FirstArrival

namespace Cordboard.Archive
open Data

section
variable {A B : Type} {codec : Codec} {files : List ArchiveFile} {file : ArchiveFile}

/-- The exception of a reader. -/
def exception : Except Raised A → Option Raised
  | .ok _ => none
  | .error exception => some exception

theorem exception_some {outcome : Except Raised A} {raised : Raised} (same : exception outcome = some raised) :
    outcome = .error raised := by
  cases outcome with
  | ok value => cases same
  | error other => rw [Option.some.inj same]

theorem raised_bind (first : Checked A) (rest : A → Checked B) :
    raised (first >>= rest) = raised first >>= fun value => raised (rest value) := by
  cases first <;> rfl

/-- A stream that ends is read like its lines. -/
theorem readStream_ended (number line : Nat) (lines : List String) (spans : SpanMap) :
    readStream codec number line lines none spans = raised (readLines number line (lines.map (load codec)) spans) := by
  induction lines generalizing line spans with
  | nil =>
      rw [readStream, List.map_nil, readLines, raised_bind]
      rfl
  | cons text rest ih =>
      rw [readStream, List.map_cons, readLines, raised_bind]
      congr 1
      funext next
      exact ih (line + 1) next

theorem readStreams_ended (number : Nat) {streams : List Stream} (ended : ∀ stream ∈ streams, stream.stop = none)
    (spans : SpanMap) : readStreams codec number streams spans =
      raised (readFiles number (streams.map fun stream => stream.lines.map (load codec)) spans) := by
  induction streams generalizing number spans with
  | nil => rfl
  | cons stream rest ih =>
      obtain ⟨own, others⟩ := List.forall_mem_cons.mp ended
      rw [readStreams, List.map_cons, readFiles, raised_bind, own, readStream_ended]
      congr 1
      funext next
      exact ih (number + 1) others next

/-- Files whose streams end are read like their lines. -/
theorem strictSpans_ended (ended : ∀ file ∈ files, (file.stream codec).stop = none) : strictSpans codec files =
    raised (readSpans (files.map fun file => (file.stream codec).lines.map (load codec))) := by
  have streams : ∀ stream ∈ files.map (ArchiveFile.stream codec), stream.stop = none := by
    intro stream member
    obtain ⟨file, inside, rfl⟩ := List.mem_map.mp member
    exact ended file inside
  rw [strictSpans, readStreams_ended 1 streams, readSpans, raised_bind, List.map_map]
  congr 1
  funext next
  rw [raised_bind]
  rfl

theorem stopped_or_ended (codec : Codec) (files : List ArchiveFile) :
    (∃ file ∈ files, (file.stream codec).stop ≠ none) ∨ ∀ file ∈ files, (file.stream codec).stop = none := by
  by_cases stopped : ∃ file ∈ files, (file.stream codec).stop ≠ none
  · exact .inl stopped
  · exact .inr (by simpa using stopped)

theorem visible_stopped {failure : ReadFailure} (stopped : (file.stream codec).stop = some failure) :
    visibleLines codec file = .error (.read failure) := by
  rw [visibleLines, stopped]

theorem visible_closed (closed : file.closed = true) (ended : (file.stream codec).stop = none) :
    visibleLines codec file = .ok ((file.stream codec).lines, false) := by
  rw [visibleLines, ended]
  exact if_pos closed

/-- One stream that fails is enough to stop the reader, and the exception is not an `ArchiveError`. -/
theorem visible_fails (stopped : ∃ file ∈ files, (file.stream codec).stop ≠ none) :
    ∃ failure, files.mapM (visibleLines codec) = .error (.read failure) := by
  induction files with
  | nil =>
      obtain ⟨_, member, _⟩ := stopped
      cases member
  | cons file rest ih =>
      rw [List.mapM_cons]
      cases stop : (file.stream codec).stop with
      | some failure => exact ⟨failure, by rw [visible_stopped stop]; rfl⟩
      | none =>
          have later : ∃ other ∈ rest, (other.stream codec).stop ≠ none := by
            obtain ⟨other, member, broken⟩ := stopped
            rcases List.mem_cons.mp member with rfl | inside
            · exact absurd stop broken
            · exact ⟨other, inside, broken⟩
          obtain ⟨failure, fails⟩ := ih later
          have shows : ∃ shown, visibleLines codec file = .ok shown := by
            rw [visibleLines, stop]
            dsimp only
            split
            · exact ⟨_, rfl⟩
            · split
              · exact ⟨_, rfl⟩
              · split <;> exact ⟨_, rfl⟩
          obtain ⟨shown, own⟩ := shows
          exact ⟨failure, by rw [own, fails]; rfl⟩

/-- A stream that fails leaves `archive_health` with an exception. -/
theorem health_escapes (stopped : ∃ file ∈ files, (file.stream codec).stop ≠ none) :
    ∃ failure, archiveHealth codec files = .error (.read failure) := by
  obtain ⟨failure, fails⟩ := visible_fails stopped
  have some_ : files.isEmpty = false := by
    obtain ⟨file, member, _⟩ := stopped
    exact List.isEmpty_eq_false_iff_exists_mem.mpr ⟨file, member⟩
  have active : readActiveSpans codec files = .error (.read failure) := by
    rw [readActiveSpans, fails]
    rfl
  exact ⟨failure, by simp only [archiveHealth, some_, Bool.false_eq_true, if_false, active]⟩

/-- The visible lines of closed partitions are all their lines. -/
theorem visible_all (closed : ∀ file ∈ files, file.closed = true)
    (ended : ∀ file ∈ files, (file.stream codec).stop = none) : files.mapM (visibleLines codec) =
      .ok (files.map fun file => ((file.stream codec).lines, false)) := by
  induction files with
  | nil => rfl
  | cons file rest ih =>
      obtain ⟨shut, others⟩ := List.forall_mem_cons.mp closed
      obtain ⟨own, streams⟩ := List.forall_mem_cons.mp ended
      rw [List.mapM_cons, visible_closed shut own, ih others streams]
      rfl

/-- The health after the strict reader returned a map. -/
def healthOf (spans : SpanMap) (incompleteFiles : List String) : ArchiveHealth :=
  ⟨if incompleteFiles.isEmpty then .healthy else .incomplete, spans.entries.items.length, incompleteFiles, none⟩

/-- The strict reader returns a map with spans or raises `ArchiveError`. -/
theorem readSpans_cases (lines : List (List (Checked Json))) :
    (∃ spans, readSpans lines = .ok spans ∧ spans.entries.items.length ≠ 0) ∨
      ∃ reason, readSpans lines = .error (.archive reason) := by
  rcases (tame_readSpans lines).returns_or_raises with ⟨spans, done⟩ | raises
  · obtain ⟨next, _, later⟩ := bind_ok.mp done
    obtain ⟨some_, later⟩ := require_bind_ok.mp later
    obtain rfl := Except.ok.inj later
    exact .inl ⟨next, done, by simpa using some_⟩
  · exact .inr raises

/-- The health follows from the visible lines of the files. -/
theorem health_of_visible {visible : List (List String × Bool)} (some_ : files ≠ [])
    (shown : files.mapM (visibleLines codec) = .ok visible)
    (lines : ((visible.map Prod.fst).filter fun lines => !lines.isEmpty) ≠ []) :
    (∃ spans, readSpans (((visible.map Prod.fst).filter fun lines => !lines.isEmpty).map fun lines =>
        lines.map (load codec)) = .ok spans ∧
      archiveHealth codec files = .ok (healthOf spans
        (((files.zip visible).filter fun item => item.2.2).map fun item => item.1.name))) ∨
    ∃ reason, readSpans (((visible.map Prod.fst).filter fun lines => !lines.isEmpty).map fun lines =>
        lines.map (load codec)) = .error (.archive reason) ∧
      archiveHealth codec files = .ok ⟨.failed, 0, [], some reason⟩ := by
  have first : files.isEmpty = false := by simpa using some_
  have second : ((visible.map Prod.fst).filter fun lines => !lines.isEmpty).isEmpty = false := by
    rw [← Bool.not_eq_true, List.isEmpty_iff]
    exact lines
  rcases readSpans_cases (((visible.map Prod.fst).filter fun lines => !lines.isEmpty).map fun lines =>
    lines.map (load codec)) with ⟨spans, done, count⟩ | ⟨reason, failed⟩
  · have active : readActiveSpans codec files = .ok (some spans,
        ((files.zip visible).filter fun item => item.2.2).map fun item => item.1.name) := by
      rw [readActiveSpans, shown]
      change (if _ then _ else _) = _
      rw [second, if_neg Bool.false_ne_true, done]
      rfl
    refine .inl ⟨spans, done, ?_⟩
    simp only [archiveHealth, first, Bool.false_eq_true, if_false, active, Option.map_some, Option.getD_some, count,
      healthOf]
  · have active : readActiveSpans codec files = .error (.checked (.archive reason)) := by
      rw [readActiveSpans, shown]
      change (if _ then _ else _) = _
      rw [second, if_neg Bool.false_ne_true, failed]
      rfl
    exact .inr ⟨reason, failed, by simp only [archiveHealth, first, Bool.false_eq_true, if_false, active]⟩

end

section Example

/-- A record without spans. -/
def emptyRecord : String := "\x7b\"resourceSpans\": []\x7d\n"

/-- The record is compressed. -/
def wholePartition : ArchiveFile := ⟨"a.otlp.jsonl.gz", true,
  [31, 139, 8, 0, 0, 0, 0, 0, 2, 3, 171, 86, 42, 74, 45, 206, 47, 45, 74, 78, 13, 46, 72, 204, 43, 86,
    178, 82, 136, 142, 173, 229, 2, 0, 149, 181, 140, 157, 22, 0, 0, 0]⟩

/-- This is what the readers do with the record and with a stream that stops inside its header. -/
def sampleCodec : Codec where
  loads text := if text = emptyRecord then some (.obj [("resourceSpans", .arr [])]) else none
  gunzip bytes := if bytes = wholePartition.bytes then ⟨[emptyRecord], none⟩ else ⟨[], some .eof⟩

/-- The stream stops after the first bytes of its header. -/
def truncatedPartition : ArchiveFile := ⟨"b.otlp.jsonl.gz", true, [31, 139]⟩

end Example

end Cordboard.Archive
