import Cordboard.Construction.Router

namespace Cordboard
open Data Effects

/-- The four types in the order of `SIGNAL_TYPES`. -/
def signalTypes : List SignalType := [.manual, .file, .schedule, .runFinished]

namespace Rules

/-- This is how the message of a Rule writes `SIGNAL_TYPES`. -/
def signalTypesText : String :=
  "(" ++ ", ".intercalate (signalTypes.map fun type => "'" ++ type.text ++ "'") ++ ")"

example : signalTypesText = "('manual', 'file', 'schedule', 'run.finished')" := by decide

def invalidRule {A : Type} (message : String) : Except Exc A := .error ⟨.invalidRule, message⟩

/-- A declared Rule is a decoded object. -/
abbrev Declared := List (String × Json)

/-- This is `rule.get(name)`. -/
def field (rule : Declared) (name : String) : Json := (rule.lookup name).getD .null

/-- The value must be a text with something besides white space. -/
def requireText (value : Json) (message : String) : Except Exc String :=
  match value with
  | .str text => if blank text then invalidRule message else .ok text
  | _ => invalidRule message

def signalType (value : Json) : Except Exc SignalType :=
  match value with
  | .str text =>
      match signalTypes.find? fun type => type.text = text with
      | some type => .ok type
      | none => invalidRule ("rule 'signal_type' must be one of " ++ signalTypesText)
  | _ => invalidRule ("rule 'signal_type' must be one of " ++ signalTypesText)

/-- A destination maps to the text of a path. -/
def destination : String × Json → Option (String × String)
  | (name, .str path) => some (name, path)
  | _ => none

def validateInputMapping (rule : Declared) : Except Exc (List (String × String)) :=
  match (rule.lookup "input").getD (.obj []) with
  | .obj members =>
      match members.mapM destination with
      | some mapping => .ok mapping
      | none => invalidRule "rule 'input' must be an object of destination key -> dot-path string"
  | _ => invalidRule "rule 'input' must be an object of destination key -> dot-path string"

/-- The condition names the target itself. Without a connection it means the connection of the Rule. -/
def selfLoop (when_ : List (String × Json)) (connection assistant : String) : Bool :=
  ((when_.lookup "connection").getD (.str connection)).pyEq (.str connection) &&
    ((when_.lookup "assistant").getD .null).pyEq (.str assistant)

/-- A `run.finished` Rule needs a condition, and it inherits the Subject unless it says otherwise. -/
def validateCascade (rule : Declared) (name connection assistant : String) : Except Exc Rule := do
  if (field rule "match").truthy then
    invalidRule "run.finished rule declares 'when', not 'match'"
  else
    match (rule.lookup "when").getD (.obj []) with
    | .obj (first :: rest) =>
        if selfLoop (first :: rest) connection assistant then
          invalidRule ("rule '" ++ name ++ "' would create a self-loop: 'when' targets the same " ++
            "connection/assistant it routes to")
        else
          let subject ← requireText ((rule.lookup "subject").getD (.str "subject"))
            "rule 'subject' must be a non-empty dot-path string"
          let input ← validateInputMapping rule
          pure ⟨name, .runFinished, first :: rest, [], connection, assistant, subject, input⟩
    | _ => invalidRule "run.finished rule requires a non-empty 'when' condition"

/-- Every other Rule filters by `match`, and needs a Subject. -/
def validateExternal (rule : Declared) (type : SignalType) (name connection assistant : String) : Except Exc Rule := do
  if (field rule "when").truthy then
    invalidRule "'when' is only valid for a run.finished rule; use 'match'"
  else
    let subject ← requireText (field rule "subject") "rule 'subject' must be a non-empty dot-path string"
    match (rule.lookup "match").getD (.obj []) with
    | .obj members =>
        let input ← validateInputMapping rule
        pure ⟨name, type, [], members, connection, assistant, subject, input⟩
    | _ => invalidRule "rule 'match' must be an object of dot-path -> literal value"

def validateRule (rule : Declared) : Except Exc Rule := do
  let name ← requireText (field rule "name") "rule 'name' must be a non-empty string"
  let type ← signalType (field rule "signal_type")
  let connection ← requireText (field rule "connection") "rule 'connection' must name a registered connection alias"
  let assistant ← requireText (field rule "assistant") "rule 'assistant' must be a non-empty string"
  if type = .runFinished then
    validateCascade rule name connection assistant
  else
    validateExternal rule type name connection assistant

/-- `json.dumps` writes the members of each object in the order of their names. -/
def sortMembers {V : Type} (members : List (String × V)) : List (String × V) :=
  members.insertionSort fun first second => first.1 ≤ second.1

def sorted (rule : Rule) : Rule :=
  { rule with
    whenPaths := sortMembers rule.whenPaths
    matchPaths := sortMembers rule.matchPaths
    input := sortMembers rule.input }

/-- A Rule is appended, or it replaces the Rule of its name. -/
def addRule (rule : Declared) (replace : Bool) : Py Unit := do
  let validated ← Fallible.ofExcept (validateRule rule)
  let rules ← loadRules
  match rules.findIdx? fun stored => stored.name = validated.name with
  | some index =>
      if replace then
        writeAtomic .rules ((rules.set index validated).map sorted)
      else
        raise .invalidRule ("rule '" ++ validated.name ++ "' already exists")
  | none => writeAtomic .rules ((rules ++ [validated]).map sorted)

end Rules

end Cordboard
