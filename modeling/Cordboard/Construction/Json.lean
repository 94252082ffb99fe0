import Cordboard.Data.Dict
import Mathlib.Data.Rat.Defs

namespace Cordboard

/-- A decoded JSON value keeps the difference between integers and fractions. -/
inductive Json where
  | null
  | bool (value : Bool)
  | int (value : Int)
  | float (value : ℚ)
  | str (value : String)
  | arr (items : List Json)
  | obj (members : List (String × Json))
deriving Inhabited

namespace Json

/-- Python counts a boolean as the number zero or one. -/
def number? : Json → Option ℚ
  | .bool value => some (if value then 1 else 0)
  | .int value => some value
  | .float value => some value
  | _ => none

/-- An empty container, an empty text, zero, and `None` are false in a condition. -/
def truthy : Json → Bool
  | .null => false
  | .bool value => value
  | .int value => value ≠ 0
  | .float value => value ≠ 0
  | .str value => value ≠ ""
  | .arr items => !items.isEmpty
  | .obj members => !members.isEmpty

/-- This is the `or` operator on two values. -/
def orElse (first second : Json) : Json := if first.truthy then first else second

mutual

/-- This is the `==` operator on decoded JSON. -/
def pyEq : Json → Json → Bool
  | .null, .null => true
  | .str first, .str second => first == second
  | .arr first, .arr second => pyEqItems first second
  | .obj first, .obj second => first.length == second.length && pyEqMembers first second
  | first, second => first.number?.isSome && first.number? == second.number?

/-- Two arrays are equal item by item. -/
def pyEqItems : List Json → List Json → Bool
  | [], [] => true
  | first :: rest, second :: others => pyEq first second && pyEqItems rest others
  | _, _ => false

/-- Each member of the first object has an equal member in the second one. -/
def pyEqMembers : List (String × Json) → List (String × Json) → Bool
  | [], _ => true
  | (name, value) :: rest, others =>
      (match others.lookup name with
        | some other => pyEq value other
        | none => false) && pyEqMembers rest others

end

/-- An optional text is a string or `None`. -/
def ofText : Option String → Json
  | some value => .str value
  | none => .null

end Json

/-- These characters are white space for `str.strip`. -/
def isSpace (c : Char) : Bool :=
  let code := c.toNat
  (9 ≤ code && code ≤ 13) || (28 ≤ code && code ≤ 32) || code == 133 || code == 160 || code == 5760 ||
    (8192 ≤ code && code ≤ 8202) || code == 8232 || code == 8233 || code == 8239 || code == 8287 || code == 12288

def strip (text : String) : String :=
  String.ofList ((text.toList.dropWhile isSpace).reverse.dropWhile isSpace).reverse

/-- A text is blank when `str.strip` leaves nothing of it. -/
def blank (text : String) : Bool := text.toList.all isSpace

/-- This escape writes one 16-bit code unit. -/
def unitEscape (code : Nat) : List Char :=
  ['\\', 'u', Nat.digitChar (code / 4096 % 16), Nat.digitChar (code / 256 % 16),
    Nat.digitChar (code / 16 % 16), Nat.digitChar (code % 16)]

/-- This is how `json.dumps` writes one character inside a string. -/
def escapeChar (c : Char) : List Char :=
  let code := c.toNat
  if code = 34 then ['\\', '"']
  else if code = 92 then ['\\', '\\']
  else if code = 10 then ['\\', 'n']
  else if code = 13 then ['\\', 'r']
  else if code = 9 then ['\\', 't']
  else if code = 8 then ['\\', 'b']
  else if code = 12 then ['\\', 'f']
  else if 32 ≤ code ∧ code ≤ 126 then [c]
  else if code < 65536 then unitEscape code
  else unitEscape (55296 + (code - 65536) / 1024) ++ unitEscape (56320 + (code - 65536) % 1024)

/-- This is how `json.dumps` writes one string. -/
def dumpsText (text : String) : String :=
  String.ofList (['"'] ++ text.toList.flatMap escapeChar ++ ['"'])

/-- This is how `json.dumps` writes a list of strings. -/
def dumpsTexts (texts : List String) : String :=
  "[" ++ ", ".intercalate (texts.map dumpsText) ++ "]"

example : dumpsTexts ["local", "t\n1"] = "[\"local\", \"t\\n1\"]" := by decide

end Cordboard
