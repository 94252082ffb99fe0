import Cordboard.Construction.Archive.Health

namespace Cordboard.ArchiveCheck
open Archive (ReadFailure Stream decodeUtf8)

/-- These are `json.loads` and the strict `base64.b64decode`. The proofs assume nothing about them.
A line has no value when the value nests too deep for the interpreter or has a text that no encoding can write. -/
structure Decoder where
  loads : String → Option Json
  b64decode : String → Option (List UInt8)

/-- A file of the archive gives one text stream to `open` and another one to `gzip.open`.
An opener that raises gives a stream without lines. -/
structure File where
  name : String
  plain : Stream
  gunzipped : Stream

/-- This tells whether `path.suffix` is `.gz`. A leading dot starts no suffix. -/
def File.packed (file : File) : Bool := ".gz".toList.isSuffixOf file.name.toList && 3 < file.name.length

def File.stream (file : File) : Stream := if file.packed then file.gunzipped else file.plain

/-- A path is a directory or a file, or asking the system about it raises `OSError`. -/
inductive ArchivePath where
  | directory (entries : List File)
  | file (file : File)
  | unlisted

/-- This is `sorted(path.glob(...))` with a pattern that fixes the end of the name. -/
def glob (entries : List File) (suffix : String) : List File :=
  (entries.filter fun entry => suffix.toList.isSuffixOf entry.name.toList).mergeSort fun first second =>
    first.name ≤ second.name

def ArchivePath.entries : ArchivePath → Option (List File)
  | .directory entries => some (glob entries ".otlp.jsonl" ++ glob entries ".otlp.jsonl.gz")
  | .file single => some [single]
  | .unlisted => none

/-- The files of all paths come with a flag that a directory has none. -/
def listed : List ArchivePath → Option (List File × Bool)
  | [] => some ([], false)
  | path :: rest => do
      let entries ← path.entries
      let (files, failed) ← listed rest
      some (entries ++ files, entries.isEmpty || failed)

/-- A line of the archive is known by the position of its file and its own position. -/
structure Record where
  file : Nat
  line : Nat
  text : String
deriving DecidableEq

def File.records (file : File) (number : Nat) : List Record :=
  file.stream.lines.zipIdx.map fun item => ⟨number, item.2, item.1⟩

/-- A run of the scanner has an exit code, unless it raises. -/
structure Run where
  record : Record
  input : String
  code : Option Int
deriving DecidableEq

/-- The scanner may answer each record and each input in its own way. -/
abbrev Scanner : Type := Record → String → Option Int

/-- The loops of `check` keep two flags and the number of records. The runs tell what the scanner was given. -/
structure Tally where
  found : Bool
  failed : Bool
  records : Nat
  runs : List Run
deriving DecidableEq

def Tally.fail (tally : Tally) : Tally := { tally with failed := true }

/-- The exit code is counted. An exception is a failure, and it leaves the record out. -/
def Tally.note (tally : Tally) (run : Run) : Tally :=
  match run.code with
  | none => { tally with failed := true, runs := tally.runs ++ [run] }
  | some code =>
      { found := tally.found || code == 1, failed := tally.failed || !(code == 0 || code == 1),
        records := tally.records + 1, runs := tally.runs ++ [run] }

section
variable (decoder : Decoder)

/-- The value under `bytesValue` is decoded. Anything but a string raises `TypeError`. -/
def bytesText : Json → Option String
  | .str value => decoder.b64decode value >>= decodeUtf8
  | _ => none

mutual

/-- This is `strings`. An exception of the generator ends the join that consumes it. -/
def strings : Json → Option (List String)
  | .str value => some [value]
  | .arr items => stringsItems items
  | .obj members => stringsMembers members
  | _ => some []

def stringsItems : List Json → Option (List String)
  | [] => some []
  | item :: rest => do
      let texts ← strings item
      let others ← stringsItems rest
      some (texts ++ others)

def stringsMembers : List (String × Json) → Option (List String)
  | [] => some []
  | (key, item) :: rest => do
      let texts ← if key = "bytesValue" then (bytesText decoder item).map fun text => [text] else strings item
      let others ← stringsMembers rest
      some (key :: (texts ++ others))

end

/-- The record is an object with a member `resourceSpans`. -/
def isEnvelope : Json → Bool
  | .obj members => members.any fun member => member.1 == "resourceSpans"
  | _ => false

/-- The scanner is given the line and then the decoded texts of its record. -/
def scanInput (line : String) : Option String := do
  let record ← decoder.loads line
  if isEnvelope record then
    let texts ← strings decoder record
    some (line ++ "\n" ++ "\n".intercalate texts)
  else none

variable (scanner : Scanner)

/-- Each record of an open file is scanned until the stream ends or something raises.
No clause of `check` names `zlib.error`, and the other exceptions end only this file. -/
def checkRecords : List Record → Option ReadFailure → Tally → Except ReadFailure Tally
  | [], none, tally => .ok tally
  | [], some .zlib, _ => .error .zlib
  | [], some _, tally => .ok tally.fail
  | record :: rest, stop, tally =>
      match scanInput decoder record.text with
      | none => .ok tally.fail
      | some input =>
          let code := scanner record input
          let tally := tally.note ⟨record, input, code⟩
          if code.isSome then checkRecords rest stop tally else .ok tally

def checkFiles : Nat → List File → Tally → Except ReadFailure Tally
  | _, [], tally => .ok tally
  | number, file :: rest, tally => do
      let tally ← checkRecords decoder scanner (file.records number) file.stream.stop tally
      checkFiles (number + 1) rest tally

/-- The probe of the version raises, or it gives an exit code and its output. -/
abbrev Version : Type := Option (Int × List UInt8)

def isBlank (byte : UInt8) : Bool := byte == 32 || (9 ≤ byte && byte ≤ 13)

/-- This is `bytes.strip`. -/
def stripBytes (bytes : List UInt8) : List UInt8 := ((bytes.dropWhile isBlank).reverse.dropWhile isBlank).reverse

def isPinned : Version → Bool
  | some (code, output) => code == 0 && stripBytes output == "redact-secret 0.1.0-beta.1".toUTF8.data.toList
  | none => false

/-- The command prints one line and returns a code. The runs of the scanner are kept with them. -/
structure Report where
  code : Nat
  printed : String
  runs : List Run
deriving DecidableEq

def flag (value : Bool) : String := if value then "True" else "False"

/-- Without a record the check fails. A failure outranks a finding. -/
def Tally.report (tally : Tally) : Report :=
  let failed := tally.failed || tally.records == 0
  { code := if failed then 2 else if tally.found then 1 else 0
    printed := "archive-check: records=" ++ toString tally.records ++ " findings=" ++ flag tally.found ++
      " failure=" ++ flag failed
    runs := tally.runs }

/-- This is `check`. -/
def check (version : Version) (paths : List ArchivePath) : Except ReadFailure Report :=
  if isPinned version then
    match listed paths with
    | none => .ok (Tally.report ⟨false, true, 0, []⟩)
    | some (files, failed) => do
        let tally ← checkFiles decoder scanner 0 files ⟨false, failed, 0, []⟩
        .ok tally.report
  else .ok (Tally.report ⟨false, true, 0, []⟩)

end

end Cordboard.ArchiveCheck
