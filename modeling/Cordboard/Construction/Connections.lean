import Cordboard.Construction.Url
import Cordboard.Construction.Backend
import Cordboard.Construction.Viewer.Scope
import Cordboard.Data.Keyed

namespace Cordboard.Connections
open Data Url

/-- A record names where a Deployment lives. -/
structure Record where
  endpoint : String
  launch : Option (List String)
  idleAfter : Option Time
  authEndpoint : Option String
  graphMap : Option (Dict String String)

/-- The Router reads these fields of a record. -/
def Record.connection (record : Record) : Connection := ⟨record.endpoint, record.launch.getD [], record.idleAfter⟩

/-- The viewer reads these fields of a record. -/
def Record.registered (record : Record) : Viewer.Registered := ⟨record.endpoint, record.graphMap.getD Dict.empty⟩

abbrev Records : Type := Dict String Record

def defaultIdleAfter : Time := 600

def invalid {A : Type} (message : String) : Except Exc A := .error ⟨.invalidConnection, message⟩

def loadConnections (file : File Records) : Except Exc Records :=
  match file with
  | .missing => .ok Dict.empty
  | .unreadable corruption => .error (loadError .connections corruption)
  | .content data => .ok data

def validateEndpoint (refusal : Refusal) (endpoint : String) : Except Exc String :=
  if blank endpoint then invalid "endpoint must be a non-empty string"
  else
    match urlsplit refusal endpoint with
    | .error message => .error ⟨.value, message⟩
    | .ok parsed =>
        if parsed.scheme ≠ "http".toList ∧ parsed.scheme ≠ "https".toList then
          invalid "endpoint must be an http or https URL"
        else if parsed.hostname.isEmpty then invalid "endpoint must include a host"
        else if parsed.hasUserinfo then
          invalid "endpoint must not carry userinfo; Cordboard stores no credentials"
        else .ok (EntityAuth.stripSlashes endpoint)

def validateAlias (alias_ : String) : Except Exc String :=
  if blank alias_ then invalid "alias must be a non-empty string" else .ok alias_

def validateLaunch (launch : Option (List String)) : Except Exc (Option (List String)) :=
  match launch with
  | none => .ok none
  | some words =>
      if words.isEmpty || words.any blank then invalid "launch must be a non-empty list of non-empty strings"
      else .ok (some words)

def validateIdleAfter (idleAfter : Option Time) : Except Exc Time :=
  match idleAfter with
  | none => .ok defaultIdleAfter
  | some seconds =>
      if seconds ≤ 0 then invalid "idle_after must be a positive number of seconds" else .ok seconds

def validateGraphId (value label : String) : Except Exc String :=
  if blank value then invalid (label ++ " must be a non-empty string") else .ok value

/-- `json.dump` writes the aliases in order. -/
def sorted (data : Records) : Records := data.sortBy id

/-- The idle threshold counts for a managed Deployment only. -/
def addConnection (refusal : Refusal) (file : File Records) (alias_ endpoint : String) (launch : Option (List String))
    (idleAfter : Option Time) (authEndpoint : Option String) (replace : Bool) : Except Exc Records := do
  let alias_ ← validateAlias alias_
  let endpoint ← validateEndpoint refusal endpoint
  let launch ← validateLaunch launch
  let authEndpoint ← authEndpoint.mapM (validateEndpoint refusal)
  let data ← loadConnections file
  if (data.get? alias_).isSome && !replace then
    invalid ("alias '" ++ alias_ ++ "' already exists; pass --replace to overwrite it")
  else
    let idleAfter ← launch.mapM fun _ => validateIdleAfter idleAfter
    .ok (sorted (data.set alias_ ⟨endpoint, launch, idleAfter, authEndpoint, none⟩))

def setAuthEndpoint (refusal : Refusal) (file : File Records) (alias_ authEndpoint : String) : Except Exc Records := do
  let authEndpoint ← validateEndpoint refusal authEndpoint
  let data ← loadConnections file
  match data.get? alias_ with
  | none => invalid ("unknown alias '" ++ alias_ ++ "'")
  | some record => .ok (sorted (data.set alias_ { record with authEndpoint := some authEndpoint }))

/-- An association is explicit, and it replaces only the association of the same document graph. -/
def setGraphMap (file : File Records) (alias_ documentGraphId graphId : String) : Except Exc Records := do
  let documentGraphId ← validateGraphId documentGraphId "document graph id"
  let graphId ← validateGraphId graphId "graph id"
  let data ← loadConnections file
  match data.get? alias_ with
  | none => invalid ("unknown alias '" ++ alias_ ++ "'")
  | some record =>
      let graphMap := ((record.graphMap.getD Dict.empty).set documentGraphId graphId).sortBy id
      .ok (sorted (data.set alias_ { record with graphMap := some graphMap }))

/-- An operator registers a Deployment or amends its record. -/
inductive Command where
  | add (alias_ endpoint : String) (launch : Option (List String)) (idleAfter : Option Time)
      (authEndpoint : Option String) (replace : Bool)
  | authEndpoint (alias_ authEndpoint : String)
  | graphMap (alias_ documentGraphId graphId : String)

def Command.alias_ : Command → String
  | .add alias_ .. => alias_
  | .authEndpoint alias_ _ => alias_
  | .graphMap alias_ .. => alias_

def execute (refusal : Refusal) (file : File Records) : Command → Except Exc Records
  | .add alias_ endpoint launch idleAfter authEndpoint replace =>
      addConnection refusal file alias_ endpoint launch idleAfter authEndpoint replace
  | .authEndpoint alias_ authEndpoint => setAuthEndpoint refusal file alias_ authEndpoint
  | .graphMap alias_ documentGraphId graphId => setGraphMap file alias_ documentGraphId graphId

/-- The file is replaced in one step, or it stays as it was. -/
def afterCommand (refusal : Refusal) (file : File Records) (command : Command) : File Records :=
  match execute refusal file command with
  | .ok data => .content data
  | .error _ => file

def afterCommands (refusal : Refusal) (file : File Records) (commands : List Command) : File Records :=
  commands.foldl (afterCommand refusal) file

end Cordboard.Connections
