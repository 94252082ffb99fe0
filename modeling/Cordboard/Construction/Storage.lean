import Cordboard.Construction.Board

namespace Cordboard
open Data Effects

/-- A board without the store behaves as if the store had no records. -/
def Store.initial : (store : Store) → store.Data
  | .connections => Dict.empty
  | .rules => []
  | .concurrency => Dict.empty
  | .lifecycle => Dict.empty
  | .signalDedupe => Dict.empty
  | .responseDedupe => Dict.empty
  | .pending => Dict.empty
  | .continuity => Dict.empty
  | .expiry => Dict.empty
  | .unmatched => []

def Store.path : Store → String
  | .connections => ".cordboard/connections.json"
  | .rules => ".cordboard/rules.json"
  | .concurrency => ".cordboard/concurrency.json"
  | .lifecycle => ".cordboard/deployment_lifecycle.json"
  | .signalDedupe => ".cordboard/signal_dedupe.json"
  | .responseDedupe => ".cordboard/response_dedupe.json"
  | .pending => ".cordboard/pending_completions.json"
  | .continuity => ".cordboard/run_continuity.json"
  | .expiry => ".cordboard/approval_expiry.json"
  | .unmatched => ".cordboard/unmatched.json"

/-- The loaders name their own file in the same two messages. -/
def Store.label : Store → String
  | .connections => "connections"
  | .rules => "rules"
  | .concurrency => "concurrency"
  | .lifecycle => "deployment lifecycle"
  | .signalDedupe => "signal dedupe"
  | .responseDedupe => "response dedupe"
  | .pending => "pending completions"
  | .continuity => "run continuity"
  | .expiry => "approval expiry"
  | .unmatched => "unmatched"

def Store.shape : Store → String
  | .connections => "a JSON object of alias -> record"
  | .rules => "a JSON array of rule objects"
  | _ => "a JSON object"

def Store.errorKind : Store → ExcKind
  | .connections => .invalidConnection
  | .rules => .invalidRule
  | .concurrency => .concurrency
  | .lifecycle => .deploymentLifecycle
  | .signalDedupe => .signalDedupe
  | .responseDedupe => .responseDedupe
  | .pending => .pendingCompletion
  | .continuity => .runContinuity
  | .expiry => .approvalExpiry
  | .unmatched => .attribute

/-- `json.dump` writes the members of every object in the order of their encoded keys. -/
def Store.sorted : (store : Store) → store.Data → store.Data
  | .connections, data => data.sortBy id
  | .rules, data => data
  | .concurrency, data => data.sortBy fun key => dumpsTexts [key.1, key.2]
  | .lifecycle, data => data.sortBy id
  | .signalDedupe, data => data.sortBy id
  | .responseDedupe, data => data.sortBy fun key => dumpsTexts [key.1, key.2.1, key.2.2]
  | .pending, data => data.sortBy fun key => dumpsTexts [key.1, key.2]
  | .continuity, data => (data.mapValues fun threads => threads.sortBy id).sortBy id
  | .expiry, data => (data.mapValues fun threads => threads.sortBy id).sortBy id
  | .unmatched, data => data

def loadError (store : Store) : Corruption → Exc
  | .notJson => ⟨store.errorKind, store.label ++ " file is not valid JSON: " ++ store.path⟩
  | .wrongShape => ⟨store.errorKind, store.label ++ " file must be " ++ store.shape ++ ": " ++ store.path⟩

/-- Each loader reads a missing file as empty and refuses an unreadable one. -/
def decode (store : Store) : File store.Data → Except Exc store.Data
  | .missing => .ok store.initial
  | .unreadable corruption => .error (loadError store corruption)
  | .content data => .ok data

def load (store : Store) : Py store.Data := do
  let file ← readFile store
  Fallible.ofExcept (decode store file)

/-- The writer replaces the whole file in one step. -/
def writeAtomic (store : Store) (data : store.Data) : Py Unit :=
  @Fallible.request signature Exc (Effect.write store (store.sorted data))

/-- The lock is held across the whole body, also when the body raises. -/
def locked {A : Type} (file : LockFile) (body : Py A) : Py A := do
  lock file
  let outcome ← body.attempt
  unlock file
  Fallible.ofExcept outcome

def loadConnections : Py (Dict String Connection) := load .connections

def getConnection (alias_ : String) : Py Connection := do
  let data ← loadConnections
  match data.get? alias_ with
  | some connection => pure connection
  | none => raise .invalidConnection ("unknown alias '" ++ alias_ ++ "'")

def loadRules : Py (List Rule) := load .rules

end Cordboard
