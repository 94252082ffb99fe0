import Cordboard.Proof.Archive.Snapshots

namespace Cordboard.Archive
open Data

section
variable (codec : Codec)

/-- The strict reader takes these lines of a file and goes on. -/
def takeLines (file : Nat) : Nat → List String → SpanMap → Checked SpanMap
  | _, [], spans => .ok spans
  | line, text :: rest, spans => do
      let spans ← located file (line + 1) (load codec text >>= readRecord (place file (line + 1)) spans)
      takeLines file (line + 1) rest spans

/-- The strict reader takes everything before one line of this file and refuses the line. These lines come after it. -/
def Refuses (files : List ArchiveFile) (file : ArchiveFile) (after : List String) : Prop :=
  ∃ earlier later before text spans middle failure,
    files = earlier ++ file :: later ∧ (file.stream codec).lines = before ++ text :: after ∧
    readStreams codec 1 (earlier.map (ArchiveFile.stream codec)) SpanMap.empty = .ok spans ∧
    takeLines codec (earlier.length + 1) 0 before spans = .ok middle ∧
    load codec text >>= readRecord (place (earlier.length + 1) (before.length + 1)) middle = .error failure

end

section
variable {codec : Codec} {file : ArchiveFile} {files earlier later : List ArchiveFile} {spans middle : SpanMap}
  {inputs : List Input}

/-- A directory with archive files is scanned to its files. -/
theorem scan_filesOf (some_ : ∀ input ∈ inputs, input.files ≠ []) : scan inputs = .ok (filesOf inputs) := by
  induction inputs with
  | nil => rfl
  | cons input rest ih =>
      obtain ⟨own, others⟩ := List.forall_mem_cons.mp some_
      have listed : (!input.files.isEmpty) = true := by simpa using own
      rw [scan]
      exact require_bind_ok.mpr ⟨listed, bind_ok.mpr ⟨filesOf rest, ih others, rfl⟩⟩

theorem located_error {A : Type} {number line : Nat} {outcome : Checked A} {failure : Failure}
    (failed : outcome = .error failure) : ∃ other, located number line outcome = .error other := by
  rw [failed]
  cases failure <;> exact ⟨_, rfl⟩

theorem readStream_append (number line : Nat) (before rest : List String) (stop : Option ReadFailure) (spans : SpanMap) :
    readStream codec number line (before ++ rest) stop spans =
      raised (takeLines codec number line before spans) >>= readStream codec number (line + before.length) rest stop := by
  induction before generalizing line spans with
  | nil => rfl
  | cons text later ih =>
      rw [List.cons_append, readStream, takeLines, raised_bind, bind_assoc]
      congr 1
      funext next
      rw [ih, List.length_cons, Nat.add_assoc, Nat.add_comm 1]

theorem readStreams_append (number : Nat) (first second : List Stream) (spans : SpanMap) :
    readStreams codec number (first ++ second) spans =
      readStreams codec number first spans >>= readStreams codec (number + first.length) second := by
  induction first generalizing number spans with
  | nil => rfl
  | cons stream rest ih =>
      rw [List.cons_append, readStreams, readStreams, bind_assoc]
      congr 1
      funext next
      rw [ih, List.length_cons, Nat.add_assoc, Nat.add_comm 1]

/-- A refused line stops the reader, whatever comes after it. -/
theorem refused_streams {first second : List Stream} {before after : List String} {text : String}
    {stop : Option ReadFailure} {failure : Failure}
    (taken : readStreams codec 1 first SpanMap.empty = .ok spans)
    (begun : takeLines codec (first.length + 1) 0 before spans = .ok middle)
    (refused : (load codec text >>= readRecord (place (first.length + 1) (before.length + 1)) middle) = .error failure) :
    ∃ other, readStreams codec 1 (first ++ ⟨before ++ text :: after, stop⟩ :: second) SpanMap.empty = .error other := by
  obtain ⟨other, refused⟩ := @located_error _ (first.length + 1) (before.length + 1) _ failure refused
  have own : readStream codec (first.length + 1) 0 (before ++ text :: after) stop spans = .error (.checked other) := by
    rw [readStream_append, begun]
    change readStream codec (first.length + 1) (0 + before.length) (text :: after) stop middle = _
    rw [Nat.zero_add, readStream, refused]
    rfl
  refine ⟨.checked other, ?_⟩
  rw [readStreams_append, taken]
  change readStreams codec (1 + first.length) (⟨before ++ text :: after, stop⟩ :: second) spans = _
  rw [Nat.add_comm 1, readStreams, own]
  rfl

/-- Each line of a file that was read loads, and there is one. -/
theorem loaded_lines {number line : Nat} {lines : List (Checked Json)}
    (done : readLines number line lines spans = .ok middle) :
    (∀ loaded ∈ lines, ∃ value, loaded = .ok value) ∧ (line = 0 → lines ≠ []) := by
  induction lines generalizing line spans with
  | nil =>
      obtain ⟨_, checked, _⟩ := bind_ok.mp done
      have counted := require_ok.mp (located_ok.mp checked)
      constructor
      · intro _ member
        cases member
      · intro zero
        simp [zero] at counted
  | cons loaded rest ih =>
      obtain ⟨next, taken, later⟩ := bind_ok.mp done
      obtain ⟨value, own, _⟩ := bind_ok.mp (located_ok.mp taken)
      exact ⟨List.forall_mem_cons.mpr ⟨⟨value, own⟩, (ih later).1⟩, fun _ => List.cons_ne_nil _ _⟩

theorem loaded_files {number : Nat} {lines : List (List (Checked Json))}
    (done : readFiles number lines spans = .ok middle) :
    ∀ file ∈ lines, (∀ loaded ∈ file, ∃ value, loaded = .ok value) ∧ file ≠ [] := by
  induction lines generalizing number spans with
  | nil =>
      intro _ member
      cases member
  | cons file rest ih =>
      obtain ⟨next, taken, later⟩ := bind_ok.mp done
      obtain ⟨each, some_⟩ := loaded_lines taken
      exact List.forall_mem_cons.mpr ⟨⟨each, some_ rfl⟩, ih later⟩

theorem stream_stop {number line : Nat} {lines : List String} {stop : Option ReadFailure}
    (done : readStream codec number line lines stop spans = .ok middle) : stop = none := by
  induction lines generalizing line spans with
  | nil =>
      cases stop with
      | none => rfl
      | some failure => cases failure <;> cases done
  | cons text rest ih =>
      obtain ⟨next, _, later⟩ := bind_ok.mp done
      exact ih later

/-- The streams that the strict reader takes have ended. -/
theorem streams_stop {number : Nat} {streams : List Stream}
    (done : readStreams codec number streams spans = .ok middle) : ∀ stream ∈ streams, stream.stop = none := by
  induction streams generalizing number spans with
  | nil =>
      intro _ member
      cases member
  | cons stream rest ih =>
      obtain ⟨next, taken, later⟩ := bind_ok.mp done
      exact List.forall_mem_cons.mpr ⟨stream_stop taken, ih later⟩

theorem readStreams_files (ended : ∀ file ∈ files, (file.stream codec).stop = none) :
    readStreams codec 1 (files.map (ArchiveFile.stream codec)) spans =
      raised (readFiles 1 (files.map fun file => (file.stream codec).lines.map (load codec)) spans) := by
  rw [readStreams_ended 1, List.map_map]
  · rfl
  · intro stream member
    obtain ⟨file, inside, rfl⟩ := List.mem_map.mp member
    exact ended file inside

theorem raised_ok {A : Type} {outcome : Checked A} {value : A} : raised outcome = .ok value ↔ outcome = .ok value := by
  cases outcome with
  | ok other => simp [raised]
  | error failure => simp [raised]

/-- A line that loads is not set aside. -/
theorem not_aside (loads : ∀ loaded ∈ (file.stream codec).lines.map (load codec), ∃ value, loaded = .ok value) :
    aside codec file = false := by
  apply Bool.eq_false_of_not_eq_true
  intro dropped
  obtain ⟨_, last, tail, refused⟩ := aside_iff.mp dropped
  obtain ⟨value, loaded⟩ := loads _ (List.mem_map_of_mem (List.mem_of_getLast? tail))
  unfold load at loaded
  rw [refused] at loaded
  cases loaded

theorem remaining_whole (kept : aside codec file = false) : remaining codec file = (file.stream codec).lines := by
  rw [remaining, kept]
  rfl

/-- The strict reader takes files only when their streams end, each line loads and no file is empty. -/
theorem strict_whole (done : strictSpans codec files = .ok spans) :
    (∀ file ∈ files, (file.stream codec).stop = none) ∧ (∀ file ∈ files, aside codec file = false) ∧
      files ≠ [] ∧ spans.entries.items ≠ [] := by
  obtain ⟨middle, read, later⟩ := bind_ok.mp done
  obtain ⟨_, counted, same⟩ := bind_ok.mp later
  obtain rfl := Except.ok.inj same
  have ended : ∀ file ∈ files, (file.stream codec).stop = none :=
    fun file member => streams_stop read _ (List.mem_map_of_mem member)
  have some_ : middle.entries.items ≠ [] := by simpa using require_ok.mp (raised_ok.mp counted)
  rw [strictSpans_ended ended] at done
  obtain ⟨_, lines, _⟩ := bind_ok.mp (raised_ok.mp done)
  refine ⟨ended, fun file member => ?_, ?_, some_⟩
  · exact not_aside (loaded_files lines _ (List.mem_map_of_mem member)).1
  · rintro rfl
    obtain rfl := Except.ok.inj read
    exact some_ rfl

/-- The tolerant reader reads the lines that remain and names the files whose last line was set aside. -/
theorem active_ended (ended : ∀ file ∈ files, (file.stream codec).stop = none) : readActiveSpans codec files =
    if ((files.map (remaining codec)).filter fun lines => !lines.isEmpty).isEmpty then
      .ok (none, (files.filter (aside codec)).map ArchiveFile.name)
    else
      raised (readSpans (((files.map (remaining codec)).filter fun lines => !lines.isEmpty).map fun lines =>
        lines.map (load codec))) >>=
      fun spans => .ok (some spans, (files.filter (aside codec)).map ArchiveFile.name) := by
  have names : ((files.zip (files.map fun file => (remaining codec file, aside codec file))).filter
      fun item => item.2.2).map (fun item => item.1.name) = (files.filter (aside codec)).map ArchiveFile.name := by
    rw [← List.map_prod_left_eq_zip, List.filter_map, List.map_map]
    rfl
  rw [readActiveSpans, visible_map ended]
  dsimp only [bind, Except.bind]
  rw [names, List.map_map]
  rfl

/-- The tolerant reader is the strict one when no line is set aside. -/
theorem active_whole (ended : ∀ file ∈ files, (file.stream codec).stop = none)
    (full : ∀ file ∈ files, file.stream codec ≠ ⟨[], none⟩) (kept : ∀ file ∈ files, aside codec file = false)
    (some_ : files ≠ []) :
    readActiveSpans codec files = strictSpans codec files >>= fun spans => .ok (some spans, []) := by
  have whole : files.map (remaining codec) = files.map fun file => (file.stream codec).lines :=
    List.map_congr_left fun file member => remaining_whole (kept file member)
  have each : ((files.map (remaining codec)).filter fun lines => !lines.isEmpty) =
      files.map fun file => (file.stream codec).lines := by
    rw [whole, List.filter_eq_self]
    intro lines member
    obtain ⟨file, inside, rfl⟩ := List.mem_map.mp member
    have lined : (file.stream codec).lines ≠ [] := by
      intro empty
      apply full file inside
      rw [← empty, ← ended file inside]
    simpa using lined
  have names : files.filter (aside codec) = [] := by
    rw [List.filter_eq_nil_iff]
    intro file member
    simp [kept file member]
  have listed : (files.map fun file => (file.stream codec).lines).isEmpty = false := by simpa using some_
  rw [active_ended ended, each, listed, if_neg Bool.false_ne_true, names, List.map_map, strictSpans_ended ended]
  rfl

theorem readSpans_refused {shown : List (List String)} {failure : Raised}
    (refused : readStreams codec 1 (shown.map fun lines => ⟨lines, none⟩) SpanMap.empty = .error failure) :
    ∃ other, raised (readSpans (shown.map fun lines => lines.map (load codec))) = .error other := by
  have ended : ∀ stream ∈ shown.map (fun lines => (⟨lines, none⟩ : Stream)), stream.stop = none := by
    intro stream member
    obtain ⟨lines, _, rfl⟩ := List.mem_map.mp member
    rfl
  have same := @readStreams_ended codec 1 _ ended SpanMap.empty
  rw [refused, List.map_map] at same
  refine ⟨failure, ?_⟩
  rw [readSpans, raised_bind]
  exact congrArg (· >>= _) same.symm

/-- A line before the last one remains when the last one is set aside. -/
theorem remaining_prefix {before after : List String} {text : String}
    (lines : (file.stream codec).lines = before ++ text :: after) (tail : file.closed = false → after ≠ []) :
    ∃ rest, remaining codec file = before ++ text :: rest := by
  cases dropped : aside codec file with
  | false => exact ⟨after, (remaining_whole dropped).trans lines⟩
  | true =>
      have some_ : after ≠ [] := tail (aside_iff.mp dropped).1
      refine ⟨after.dropLast, ?_⟩
      rw [remaining, dropped, if_pos rfl, lines, List.dropLast_append_of_ne_nil (List.cons_ne_nil _ _),
        List.dropLast_cons_of_ne_nil some_]

theorem stopped_active (stopped : ∃ file ∈ files, (file.stream codec).stop ≠ none) :
    ∃ other, readActiveSpans codec files = .error other := by
  obtain ⟨failure, fails⟩ := visible_fails stopped
  refine ⟨.read failure, ?_⟩
  rw [readActiveSpans, fails]
  rfl

/-- The tolerant reader refuses what the strict one refuses before the last line of a plain file. -/
theorem refused_active (full : ∀ file ∈ files, file.stream codec ≠ ⟨[], none⟩) {after : List String}
    (refuses : Refuses codec files file after) (tail : file.closed = false → after ≠ []) :
    ∃ other, readActiveSpans codec files = .error other := by
  rcases stopped_or_ended codec files with stopped | ended
  · exact stopped_active stopped
  · obtain ⟨earlier, later, before, text, spans, middle, failure, rfl, lines, taken, begun, refused⟩ := refuses
    obtain ⟨rest, own⟩ := remaining_prefix lines tail
    have loaded : readFiles 1 (earlier.map fun file => (file.stream codec).lines.map (load codec)) SpanMap.empty =
        .ok spans := by
      rw [readStreams_files fun file member => ended file (List.mem_append_left _ member)] at taken
      exact raised_ok.mp taken
    have shown : (((earlier ++ file :: later).map (remaining codec)).filter fun lines => !lines.isEmpty) =
        earlier.map (fun file => (file.stream codec).lines) ++
          (before ++ text :: rest) :: ((later.map (remaining codec)).filter fun lines => !lines.isEmpty) := by
      have whole : earlier.map (remaining codec) = earlier.map fun file => (file.stream codec).lines :=
        List.map_congr_left fun file member =>
          remaining_whole (not_aside (loaded_files loaded _ (List.mem_map_of_mem member)).1)
      have each : ((earlier.map fun file => (file.stream codec).lines).filter fun lines => !lines.isEmpty) =
          earlier.map fun file => (file.stream codec).lines := by
        rw [List.filter_eq_self]
        intro lines member
        obtain ⟨file, inside, rfl⟩ := List.mem_map.mp member
        simpa using (loaded_files loaded _ (List.mem_map_of_mem inside)).2
      rw [List.map_append, List.filter_append, whole, each, List.map_cons, own]
      simp
    have streams : earlier.map (fun file => (⟨(file.stream codec).lines, none⟩ : Stream)) =
        earlier.map (ArchiveFile.stream codec) := by
      apply List.map_congr_left
      intro file member
      rw [← ended file (List.mem_append_left _ member)]
    have count : (earlier.map (ArchiveFile.stream codec)).length = earlier.length := List.length_map _
    obtain ⟨other, fails⟩ := @refused_streams codec spans middle (earlier.map (ArchiveFile.stream codec))
      (((later.map (remaining codec)).filter fun lines => !lines.isEmpty).map fun lines => ⟨lines, none⟩)
      before rest text none failure taken (by rwa [count]) (by rwa [count])
    rw [active_ended ended, shown, if_neg]
    · rw [← streams] at fails
      have whole : readStreams codec 1 ((earlier.map (fun file => (file.stream codec).lines) ++
          (before ++ text :: rest) :: ((later.map (remaining codec)).filter fun lines => !lines.isEmpty)).map
            fun lines => ⟨lines, none⟩) SpanMap.empty = .error other := by
        rw [List.map_append, List.map_map, List.map_cons]
        exact fails
      obtain ⟨last, raises⟩ := readSpans_refused whole
      exact ⟨last, by rw [raises]; rfl⟩
    · simp

theorem refused_strict {after : List String} (refuses : Refuses codec files file after) :
    ∃ other, strictSpans codec files = .error other := by
  obtain ⟨earlier, later, before, text, spans, middle, failure, rfl, lines, taken, begun, refused⟩ := refuses
  have count : (earlier.map (ArchiveFile.stream codec)).length = earlier.length := List.length_map _
  obtain ⟨other, fails⟩ := @refused_streams codec spans middle (earlier.map (ArchiveFile.stream codec))
    (later.map (ArchiveFile.stream codec)) before after text (file.stream codec).stop failure taken (by rwa [count])
    (by rwa [count])
  refine ⟨other, ?_⟩
  rw [strictSpans, List.map_append, List.map_cons, ← fails, ← lines]
  rw [← lines] at fails
  rw [fails]
  rfl

end

/-- The tolerant reader refines the strict one on inputs with archive files that are not empty. -/
theorem tolerant_refines_strict (codec : Codec) (textual : codec.Textual) (inputs : List Input)
    (some_ : ∀ input ∈ inputs, input.files ≠ [])
    (full : ∀ file ∈ filesOf inputs, file.stream codec ≠ ⟨[], none⟩) :
    (∀ spans, (readActivePaths codec inputs = .ok (some spans, []) ∧ spans.entries.items ≠ []) ↔
      readPaths codec inputs = .ok spans) ∧
    (∀ file after, Refuses codec (filesOf inputs) file after → (file.closed = false → after ≠ []) →
      (∃ failure, readPaths codec inputs = .error failure) ∧
      ∃ failure, readActivePaths codec inputs = .error failure) ∧
    ∀ file ∈ filesOf inputs, (file.stream codec).stop ≠ none →
      (∃ failure, readPaths codec inputs = .error failure) ∧
      ∃ failure, readActivePaths codec inputs = .error failure := by
  have strict : readPaths codec inputs = strictSpans codec (filesOf inputs) := by
    rw [readPaths, scan_filesOf some_]
    rfl
  have tolerant : readActivePaths codec inputs = readActiveSpans codec (filesOf inputs) := readActiveCopies_eq textual
  rw [strict, tolerant]
  refine ⟨?_, ?_, ?_⟩
  · intro spans
    constructor
    · rintro ⟨done, _⟩
      have ended : ∀ file ∈ filesOf inputs, (file.stream codec).stop = none := by
        intro file member
        by_contra broken
        obtain ⟨failure, fails⟩ := stopped_active ⟨file, member, broken⟩
        rw [fails] at done
        cases done
      have shown := done
      rw [active_ended ended] at shown
      split at shown
      · cases shown
      · rename_i listed
        obtain ⟨middle, _, same⟩ := bind_ok.mp shown
        have names := (Prod.mk.inj (Except.ok.inj same)).2
        have kept : ∀ file ∈ filesOf inputs, aside codec file = false := by
          intro file member
          have none := List.filter_eq_nil_iff.mp (List.map_eq_nil_iff.mp names) file member
          simpa using none
        have files : filesOf inputs ≠ [] := by
          intro empty
          rw [empty] at listed
          exact listed rfl
        rw [active_whole ended full kept files] at done
        obtain ⟨other, read, same⟩ := bind_ok.mp done
        obtain rfl := Option.some.inj (Prod.mk.inj (Except.ok.inj same)).1
        exact read
    · intro done
      obtain ⟨ended, kept, files, entries⟩ := strict_whole done
      rw [active_whole ended full kept files, done]
      exact ⟨rfl, entries⟩
  · intro file after refuses tail
    exact ⟨refused_strict refuses, refused_active full refuses tail⟩
  · intro file member broken
    constructor
    · cases outcome : strictSpans codec (filesOf inputs) with
      | error failure => exact ⟨failure, rfl⟩
      | ok spans => exact absurd ((strict_whole outcome).1 file member) broken
    · exact stopped_active ⟨file, member, broken⟩

section Example

/-- A record with one span. -/
def spanRecord : String :=
  "\x7b\"resourceSpans\": [\x7b\"scopeSpans\": [\x7b\"spans\": [\x7b\"spanId\": \"00000000000000a1\", " ++
  "\"traceId\": \"000000000000000000000000000000a1\", \"startTimeUnixNano\": 1, \"endTimeUnixNano\": 2" ++
  "\x7d]\x7d]\x7d]\x7d\n"

def openFile : ArchiveFile := ⟨"b.otlp.jsonl", false, utf8 spanRecord⟩

/-- This is what the readers do with the two records. -/
def mixedCodec : Codec where
  loads text :=
    if text = spanRecord then
      some (envelope [.obj [("spanId", .str "00000000000000a1"), ("traceId", .str "000000000000000000000000000000a1"),
        ("startTimeUnixNano", .int 1), ("endTimeUnixNano", .int 2)]])
    else sampleCodec.loads text
  gunzip := sampleCodec.gunzip

theorem mixedCodec_textual : mixedCodec.Textual := by
  intro bytes ended
  have whole : (mixedCodec.gunzip bytes) = if bytes = wholePartition.bytes then ⟨[emptyRecord], none⟩ else ⟨[], some .eof⟩ :=
    rfl
  rw [whole] at ended ⊢
  split at ended
  · rename_i same
    rw [if_pos same]
    exact ⟨utf8 emptyRecord, by decide +kernel⟩
  · cases ended

theorem tolerant_refines_strict_mixed :
    ∃ spans, readPaths mixedCodec [.directory [wholePartition, openFile]] = .ok spans ∧
      readActivePaths mixedCodec [.directory [wholePartition, openFile]] = .ok (some spans, []) := by
  have refines := tolerant_refines_strict mixedCodec mixedCodec_textual [.directory [wholePartition, openFile]]
    (by decide +kernel) (by decide +kernel)
  have done : (readPaths mixedCodec [.directory [wholePartition, openFile]]).toOption.isSome = true := by decide +kernel
  cases read : readPaths mixedCodec [.directory [wholePartition, openFile]] with
  | error failure =>
      rw [read] at done
      cases done
  | ok spans => exact ⟨spans, rfl, ((refines.1 spans).mpr read).1⟩

end Example

end Cordboard.Archive
