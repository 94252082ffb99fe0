import Cordboard.Construction.Archive.Read

namespace Cordboard.Archive
open Data

/-- Opening or reading a file can fail in one of these ways. -/
inductive ReadFailure where
  | os
  | eof
  | zlib
  | unicode
deriving DecidableEq

/-- A reader of files raises an exception of the archive contract or of the file. -/
inductive Raised where
  | checked (failure : Failure)
  | read (failure : ReadFailure)
deriving DecidableEq

def raised {A : Type} : Checked A → Except Raised A
  | .ok value => .ok value
  | .error failure => .error (.checked failure)

/-- A text stream gives its lines until it ends or fails. -/
structure Stream where
  lines : List String
  stop : Option ReadFailure
deriving DecidableEq

/-- These are `json.loads` and the text stream of `gzip.open`. The proofs assume nothing about them. -/
structure Codec where
  loads : String → Option Json
  gunzip : List UInt8 → Stream

/-- An archive file has a name and its bytes. The suffix of its path tells whether it is a closed partition. -/
structure ArchiveFile where
  name : String
  closed : Bool
  bytes : List UInt8
deriving DecidableEq

/-- The lines of a plain file. A line ends with a line feed, a carriage return, or both, and the reader leaves a line feed. -/
def rawLines : List UInt8 → List (List UInt8)
  | [] => []
  | 13 :: 10 :: rest => [10] :: rawLines rest
  | byte :: rest =>
      if byte = 10 ∨ byte = 13 then [10] :: rawLines rest
      else match rawLines rest with
        | [] => [[byte]]
        | line :: others => (byte :: line) :: others

def decodeUtf8 (bytes : List UInt8) : Option String := String.fromUTF8? ⟨bytes.toArray⟩

section
variable (codec : Codec)

/-- This is the text stream of one file. -/
def ArchiveFile.stream (file : ArchiveFile) : Stream :=
  if file.closed then codec.gunzip file.bytes
  else match (rawLines file.bytes).mapM decodeUtf8 with
    | some lines => ⟨lines, none⟩
    | none => ⟨[], some .unicode⟩

/-- A line that `json.loads` refuses raises `ValueError`. -/
def load (line : String) : Checked Json :=
  match codec.loads line with
  | some value => .ok value
  | none => .error .value

/-- A last line that does not load is set aside in a plain file, and the flag says so. -/
def visibleLines (file : ArchiveFile) : Except Raised (List String × Bool) :=
  let stream := file.stream codec
  match stream.stop with
  | some failure => .error (.read failure)
  | none =>
      if file.closed then .ok (stream.lines, false)
      else match stream.lines.getLast? with
        | none => .ok (stream.lines, false)
        | some last =>
            if (codec.loads last).isSome then .ok (stream.lines, false) else .ok (stream.lines.dropLast, true)

/-- The strict reader gets a snapshot of each file with visible lines. A snapshot has just these lines. -/
def readActiveSpans (files : List ArchiveFile) : Except Raised (Option SpanMap × List String) := do
  let visible ← files.mapM (visibleLines codec)
  let incompleteFiles := ((files.zip visible).filter fun item => item.2.2).map fun item => item.1.name
  let materialized := (visible.map Prod.fst).filter fun lines => !lines.isEmpty
  if materialized.isEmpty then
    .ok (none, incompleteFiles)
  else
    let spans ← raised (readSpans (materialized.map fun lines => lines.map (load codec)))
    .ok (some spans, incompleteFiles)

inductive HealthStatus where
  | pending
  | empty
  | incomplete
  | failed
  | healthy
deriving DecidableEq

structure ArchiveHealth where
  status : HealthStatus
  spanCount : Nat
  incompleteFiles : List String
  detail : Option String
deriving DecidableEq

/-- The health of the files that the paths resolve to. Only an `ArchiveError` becomes the status `FAILED`. -/
def archiveHealth (files : List ArchiveFile) : Except Raised ArchiveHealth :=
  if files.isEmpty then .ok ⟨.pending, 0, [], some "no archive files present yet"⟩
  else match readActiveSpans codec files with
    | .error (.checked (.archive reason)) => .ok ⟨.failed, 0, [], some reason⟩
    | .error exception => .error exception
    | .ok (spans, incompleteFiles) =>
        let count := (spans.map fun spans => spans.entries.items.length).getD 0
        if count = 0 then
          if incompleteFiles.isEmpty then .ok ⟨.empty, 0, [], some "archive file has no spans yet"⟩
          else .ok ⟨.incomplete, 0, incompleteFiles, some "archive file has only an in-progress write"⟩
        else .ok ⟨if incompleteFiles.isEmpty then .healthy else .incomplete, count, incompleteFiles, none⟩

/-- The strict reader goes on from this line of a stream. It turns each failure but `zlib.error` into an `ArchiveError`. -/
def readStream (file : Nat) : Nat → List String → Option ReadFailure → SpanMap → Except Raised SpanMap
  | line, [], none, spans => do
      raised (located file line (require (line ≠ 0) "empty archive file"))
      .ok spans
  | _, [], some .zlib, _ => .error (.read .zlib)
  | line, [], some _, _ => .error (.checked (.archive (place file line ++ ": invalid or unreadable OTLP JSONL")))
  | line, text :: rest, stop, spans => do
      let spans ← raised (located file (line + 1) (load codec text >>= readRecord (place file (line + 1)) spans))
      readStream file (line + 1) rest stop spans

def readStreams : Nat → List Stream → SpanMap → Except Raised SpanMap
  | _, [], spans => .ok spans
  | file, stream :: rest, spans => do
      let spans ← readStream codec file 0 stream.lines stream.stop spans
      readStreams (file + 1) rest spans

/-- This is `read_spans` on the archive files themselves. -/
def strictSpans (files : List ArchiveFile) : Except Raised SpanMap := do
  let spans ← readStreams codec 1 (files.map (ArchiveFile.stream codec)) SpanMap.empty
  raised (require (!spans.entries.items.isEmpty) "archive contains no spans")
  .ok spans

/-- The visible lines of the file with this number are written to a plain copy. -/
def snapshot (lines : List String) (index : Nat) : ArchiveFile :=
  let digits := toString index
  ⟨String.ofList (List.replicate (4 - digits.length) '0') ++ digits ++ ".otlp.jsonl", false,
    (String.join lines).toUTF8.data.toList⟩

/-- This is `read_active_spans` with the copies that the strict reader opens. -/
def readActiveCopies (files : List ArchiveFile) : Except Raised (Option SpanMap × List String) := do
  let visible ← files.mapM (visibleLines codec)
  let incompleteFiles := ((files.zip visible).filter fun item => item.2.2).map fun item => item.1.name
  let materialized := ((visible.map Prod.fst).zipIdx.filter fun item => !item.1.isEmpty).map fun item =>
    snapshot item.1 item.2
  if materialized.isEmpty then
    .ok (none, incompleteFiles)
  else
    let spans ← strictSpans codec materialized
    .ok (some spans, incompleteFiles)

/-- A path names a directory or one file. -/
inductive Input where
  | directory (files : List ArchiveFile)
  | file (file : ArchiveFile)

/-- The files of a directory whose names end in the suffix come in the order of their names. -/
def globbed (files : List ArchiveFile) (suffix : String) : List ArchiveFile :=
  (files.filter fun file => suffix.toList.isSuffixOf file.name.toList).mergeSort fun first second =>
    first.name ≤ second.name

/-- The plain files of a directory come before its closed partitions. -/
def Input.files : Input → List ArchiveFile
  | .directory files => globbed files ".otlp.jsonl" ++ globbed files ".otlp.jsonl.gz"
  | .file single => [single]

/-- This is `scan`. It refuses a directory without an archive file. -/
def scan : List Input → Checked (List ArchiveFile)
  | [] => .ok []
  | input :: rest => do
      require (!input.files.isEmpty) "archive directory has no input files"
      let others ← scan rest
      .ok (input.files ++ others)

/-- This is `_files`. It tolerates a directory without an archive file. -/
def filesOf (inputs : List Input) : List ArchiveFile := inputs.flatMap Input.files

/-- This is `read_spans`. -/
def readPaths (inputs : List Input) : Except Raised SpanMap := do
  let files ← raised (scan inputs)
  strictSpans codec files

/-- This is `read_active_spans`. -/
def readActivePaths (inputs : List Input) : Except Raised (Option SpanMap × List String) :=
  readActiveCopies codec (filesOf inputs)

end

end Cordboard.Archive
