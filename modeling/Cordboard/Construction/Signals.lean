import Cordboard.Construction.Router
import Cordboard.Data.Group

namespace Cordboard.Signals
open Data

/-- A decimal number is padded with zeros to its width. -/
def digits : Nat → Nat → List Char
  | 0, _ => []
  | width + 1, value => digits width (value / 10) ++ [Nat.digitChar (value % 10)]

/-- The distance from UTC is less than a day. -/
structure Offset where
  micros : Int
  bounded : micros.natAbs < 24 * 60 * 60 * 1000000
deriving DecidableEq

structure DateTime where
  year : Fin 10000
  month : Fin 13
  day : Fin 32
  hour : Fin 24
  minute : Fin 60
  second : Fin 60
  microsecond : Fin 1000000
  offset : Option Offset
deriving DecidableEq

/-- A fraction is written when it is not zero. -/
def fraction (micros : Nat) : List Char := if micros = 0 then [] else '.' :: digits 6 micros

/-- The seconds of an offset are written when they are not zero. -/
def Offset.isoformat (offset : Offset) : List Char :=
  let micros := offset.micros.natAbs
  let seconds := micros / 1000000
  (if offset.micros < 0 then '-' else '+') :: (digits 2 (seconds / 3600) ++ ':' :: (digits 2 (seconds / 60 % 60) ++
    if seconds % 60 = 0 ∧ micros % 1000000 = 0 then []
    else ':' :: (digits 2 (seconds % 60) ++ fraction (micros % 1000000))))

/-- This is `datetime.isoformat`. -/
def DateTime.isoformat (time : DateTime) : List Char :=
  digits 4 time.year ++ '-' :: (digits 2 time.month ++ '-' :: (digits 2 time.day ++ 'T' :: (digits 2 time.hour ++
    ':' :: (digits 2 time.minute ++ ':' :: (digits 2 time.second ++ (fraction time.microsecond ++
      (time.offset.map Offset.isoformat).getD []))))))

def DateTime.text (time : DateTime) : String := String.ofList time.isoformat

example : DateTime.text ⟨2026, 7, 4, 9, 30, 0, 250, some ⟨-16200000000, by decide⟩⟩ =
    "2026-07-04T09:30:00.000250-04:30" := by decide

/-- A SHA-256 digest is written in 64 hexadecimal digits. -/
structure Hexdigest where
  digits : List Char
  sized : digits.length = 64

/-- The host decodes JSON and computes digests. -/
structure Host where
  loads : String → Option Json
  sha256 : String → Hexdigest

/-- The first 16 digits of the digest stand for the content. -/
def Host.contentHash (host : Host) (text : String) : String := String.ofList ((host.sha256 text).digits.take 16)

/-- What a file gives when it is read as UTF-8. -/
inductive FileRead where
  | failed (strerror : String)
  | undecodable (message : String)
  | text (text : String)

def invalid {A : Type} (message : String) : Except Exc A := .error ⟨.invalidSignal, message⟩

def manualSignal (payload : Json) (signalId : Option String) (now : DateTime) : Except Exc Signal :=
  match payload with
  | .obj members =>
      match signalId with
      | none => .ok (.external .manual ("manual:" ++ now.text) members)
      | some signalId =>
          if blank signalId then invalid "manual signal id must be a non-empty string"
          else .ok (.external .manual signalId members)
  | _ => invalid "manual signal payload must be a JSON object"

/-- A text that is not UTF-8 raises its own `ValueError`. -/
def fileSignal (host : Host) (path : String) (read : FileRead) : Except Exc Signal :=
  match read with
  | .failed strerror => invalid ("cannot read file signal '" ++ path ++ "': " ++ strerror)
  | .undecodable message => .error ⟨.value, message⟩
  | .text text =>
      match host.loads text with
      | none => invalid ("file signal '" ++ path ++ "' is not valid JSON")
      | some (.obj members) => .ok (.external .file ("file:" ++ path ++ ":" ++ host.contentHash text) members)
      | some _ => invalid ("file signal '" ++ path ++ "' must contain a JSON object")

/-- The members of the payload replace `schedule` and `at`. -/
def scheduleSignal (name : String) (tick : DateTime) (payload : Option Json) : Except Exc Signal :=
  let merged (members : List (String × Json)) : List (String × Json) :=
    (((Dict.empty.set "schedule" (.str name)).set "at" (.str tick.text)).update (Dict.ofPairs members)).items
  if blank name then invalid "schedule signal name must be a non-empty string"
  else
    match payload with
    | none => .ok (.external .schedule ("schedule:" ++ name ++ ":" ++ tick.text) (merged []))
    | some (.obj members) => .ok (.external .schedule ("schedule:" ++ name ++ ":" ++ tick.text) (merged members))
    | some _ => invalid "schedule signal payload must be a JSON object"

/-- These arguments make a Signal. -/
inductive Origin where
  | manual (payload : Json) (signalId : Option String) (now : DateTime)
  | file (path : String) (read : FileRead)
  | schedule (name : String) (tick : DateTime) (payload : Option Json)
  | finished (run : FinishedRun)

def Origin.signal (host : Host) : Origin → Except Exc Signal
  | .manual payload signalId now => manualSignal payload signalId now
  | .file path read => fileSignal host path read
  | .schedule name tick payload => scheduleSignal name tick payload
  | .finished run => runFinishedSignal run

end Cordboard.Signals
