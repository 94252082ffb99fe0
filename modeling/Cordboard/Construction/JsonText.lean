import Cordboard.Construction.Json
import Mathlib.Data.List.Sort

namespace Cordboard.Json

/-- The four digits of a code unit. -/
def hexDigits (unit : Nat) : List Char :=
  [Nat.digitChar (unit / 4096 % 16), Nat.digitChar (unit / 256 % 16), Nat.digitChar (unit / 16 % 16),
    Nat.digitChar (unit % 16)]

def escapeUnit (unit : Nat) : List Char := '\\' :: 'u' :: hexDigits unit

/-- A character outside the basic plane is written as two surrogates. -/
def escapeCode (code : Nat) : List Char :=
  if code < 0x10000 then escapeUnit code
  else escapeUnit (0xd800 + (code - 0x10000) / 0x400 % 0x400) ++ escapeUnit (0xdc00 + (code - 0x10000) % 0x400)

/-- Only printable ASCII characters stand for themselves. -/
def printable (letter : Char) : Bool := 32 ≤ letter.toNat ∧ letter.toNat ≤ 126

def escapeChar (letter : Char) : List Char :=
  if letter = '"' then ['\\', '"']
  else if letter = '\\' then ['\\', '\\']
  else if letter = '\n' then ['\\', 'n']
  else if letter = '\r' then ['\\', 'r']
  else if letter = '\t' then ['\\', 't']
  else if letter.toNat = 8 then ['\\', 'b']
  else if letter.toNat = 12 then ['\\', 'f']
  else if printable letter then [letter]
  else escapeCode letter.toNat

def quoted (text : String) : String := String.ofList ('"' :: text.toList.flatMap escapeChar ++ ['"'])

/-- `float.__repr__` writes printable ASCII characters. -/
structure FloatText where
  write : ℚ → String
  plain : ∀ value, ∀ letter ∈ (write value).toList, printable letter = true

section
variable (floats : FloatText)

mutual

/-- This is `json.dumps(value, sort_keys=True)`. -/
def dumps : Json → String
  | .null => "null"
  | .bool value => if value then "true" else "false"
  | .int value => toString value
  | .float value => floats.write value
  | .str text => quoted text
  | .arr items => "[" ++ ", ".intercalate (dumpsItems items) ++ "]"
  | .obj members =>
      "\x7b" ++ ", ".intercalate (((dumpsMembers members).mergeSort fun first second => first.1 ≤ second.1).map
        fun member => quoted member.1 ++ ": " ++ member.2) ++ "\x7d"

def dumpsItems : List Json → List String
  | [] => []
  | item :: rest => dumps item :: dumpsItems rest

/-- The names stand beside the texts of their values until they are sorted. -/
def dumpsMembers : List (String × Json) → List (String × String)
  | [] => []
  | (name, value) :: rest => (name, dumps value) :: dumpsMembers rest

end

end

end Cordboard.Json
