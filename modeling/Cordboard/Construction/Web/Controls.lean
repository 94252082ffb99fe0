import Cordboard.Construction.Web.Routes
import Cordboard.Effects.Interleaving
import Mathlib.Data.List.Infix

namespace Cordboard.Web
open Data Data.Percent Viewer Effects

/-- The server catches these classes of exceptions. An `ApprovalInboxError` is a `ValueError`. -/
inductive Raised where
  | value (message : String)
  | inbox (message : String)
  | os
  | runtime
  | lookup
  | other
deriving DecidableEq

def Raised.isValue : Raised → Bool
  | .value _ => true
  | .inbox _ => true
  | _ => false

/-- `str(exc)` is the message. -/
def Raised.message : Raised → String
  | .value message => message
  | .inbox message => message
  | _ => ""

/-- This is `except (ValueError, OSError, RuntimeError)`. -/
def Raised.unavailable : Raised → Bool
  | .os => true
  | .runtime => true
  | raised => raised.isValue

/-- The standard library splits a URL, reads a cookie header, an integer, and JSON, and replaces bytes that are not
UTF-8. -/
structure Library where
  urlsplit : String → Except Raised (String × String)
  cookies : String → Option (Dict String String)
  int : String → Except Raised Int
  loads : String → Option Json
  replaced : List UInt8 → String

/-- The server keeps its token and its address. -/
structure Settings where
  csrfToken : String
  host : String
  port : Nat

structure Request where
  method : String
  path : String
  headers : List (String × String)
  body : List UInt8

def lowerCase (text : String) : List Char := text.toList.map Char.toLower

/-- The first header with the name counts, in any case. -/
def Request.header (request : Request) (name : String) : Option String :=
  (request.headers.find? fun header => lowerCase header.1 = lowerCase name).map Prod.snd

abbrev Form : Type := Dict String String

structure Connection where
  endpoint : Option String
  authEndpoint : Option String

structure Assistant where
  assistantId : Json
  graphId : Json

/-- These are the arguments of `execute_run`. -/
structure Execution where
  endpoint : String
  assistant : String
  subject : String
  graphInput : Json
  requestContext : Option Json

structure Executed where
  threadId : String
  runId : String

/-- These are the arguments of `submit_response`. -/
structure Response where
  deployment : String
  threadId : String
  interruptId : String
  approver : String
  responseValue : Json
  revision : Option String
  authEndpoint : String

structure SubmissionResult where
  status : String
  reason : String

structure WaitingItem where
  threadId : String
  interruptId : String

/-- A reply shows a message and may carry a nonce. -/
structure Page where
  status : Nat
  message : Option String
  nonce : Option String

/-- A handler asks other code, which returns or raises. -/
inductive Query where
  | connections
  | snapshot
  | diagnostics
  | executionReady (alias_ : String)
  | listAssistants (endpoint : String)
  | discoverWaiting
  | discoverWaitingForThread (alias_ threadId : String)
  | actionSlot (runId : String)
  | executeRun (call : Execution)
  | recordSubmission (alias_ threadId runId : String)
  | submitResponse (call : Response)
  | reply (page : Page)
  | redirect (location : String)
  | stream (runId : String)

abbrev Query.Answer : Query → Type
  | .connections => Dict String Connection
  | .snapshot => List GraphView
  | .executionReady _ => Bool
  | .listAssistants _ => List Assistant
  | .discoverWaiting => List WaitingItem
  | .discoverWaitingForThread .. => List WaitingItem
  | .executeRun _ => Executed
  | .submitResponse _ => SubmissionResult
  | _ => Unit

/-- The set of nonces is touched in locked sections only. -/
inductive Op where
  | tokenUrlsafe
  | addNonce (nonce : String)
  | consumeNonce (nonce : String)
  | ask (query : Query)

abbrev Op.Answer : Op → Type
  | .tokenUrlsafe => String
  | .addNonce _ => Unit
  | .consumeNonce _ => Bool
  | .ask query => Except Raised query.Answer

abbrev signature : Signature := ⟨Op, Op.Answer⟩

/-- The requests share the set of nonces. Other code gives any answer. -/
def serve (nonces : List String) : (op : Op) → op.Answer → List String → Prop
  | .tokenUrlsafe, _, after => after = nonces
  | .addNonce nonce, _, after => after = nonce :: nonces.filter fun other => other ≠ nonce
  | .consumeNonce nonce, answer, after =>
      answer = decide (nonce ∈ nonces) ∧ after = nonces.filter fun other => other ≠ nonce
  | .ask _, _, after => after = nonces

def sharing (Pid : Type) : Sharing signature (List String) Pid where
  step _ nonces op answer after := serve nonces op answer after
  crash _ nonces := nonces

abbrev Control : Type → Type := Fallible signature Raised

abbrev request (op : Op) : Control op.Answer := @Fallible.request signature Raised op

def ask (query : Query) : Control query.Answer := do
  let outcome ← request (.ask query)
  Fallible.ofExcept outcome

def reply (status : Nat) (message nonce : Option String) : Control Unit := ask (.reply ⟨status, message, nonce⟩)

def failure (status : Nat) (message : String) : Control Unit := reply status (some message) none

/-- The token is drawn before the lock is taken. -/
def newNonce : Control String := do
  let nonce ← request .tokenUrlsafe
  request (.addNonce nonce)
  pure nonce

/-- This is `_match_execute`. -/
def matchExecute (library : Library) (path : String) : Option (String × String) :=
  match pathParts library.replaced path with
  | [connections, alias_, graphs, graphId, execute] =>
      if connections = "connections" ∧ graphs = "graphs" ∧ execute = "execute" then some (alias_, graphId) else none
  | _ => none

inductive ApprovalMatch where
  | list
  | detail (alias_ threadId interruptId : String)

/-- This is `_match_approvals`. -/
def matchApprovals (library : Library) (path : String) : Option ApprovalMatch :=
  match pathParts library.replaced path with
  | [approvals] => if approvals = "approvals" then some .list else none
  | [approvals, alias_, threadId, interruptId] =>
      if approvals = "approvals" then some (.detail alias_ threadId interruptId) else none
  | _ => none

/-- `connection["endpoint"]` raises `KeyError` when the member is missing. -/
def endpointOf (connection : Connection) : Control String :=
  Fallible.ofExcept (connection.endpoint.elim (.error .lookup) .ok)

/-- A `RuntimeError` means that there are no assistants to choose. -/
def formAssistants (alias_ : String) (connection : Connection) : Control Unit := do
  let ready ← ask (.executionReady alias_)
  if ready then
    let endpoint ← endpointOf connection
    let outcome ← (ask (.listAssistants endpoint)).attempt
    match outcome with
    | .error raised => if raised = .runtime then pure () else Fallible.raise raised
    | .ok _ => pure ()
  else pure ()

/-- Each execute form carries a new nonce, also the form of an error page. -/
def renderExecute (alias_ graphId : String) (asJson : Bool) (status : Nat) (message : Option String) : Control Unit := do
  let connections ← ask .connections
  match connections.get? alias_ with
  | none => failure 404 "Unknown deployment"
  | some connection => do
      let graphs ← ask .snapshot
      if graphs.any fun graph => graph.deploymentAlias = some alias_ ∧ graph.graphId = graphId then
        if asJson then reply status message none
        else do
          formAssistants alias_ connection
          let nonce ← newNonce
          ask .diagnostics
          reply status message (some nonce)
      else failure 404 "Unknown graph"

def renderApprovalsList (asJson : Bool) : Control Unit := do
  let _ ← ask .discoverWaiting
  if asJson then reply 200 none none
  else do
    let _ ← ask .snapshot
    ask .diagnostics
    reply 200 none none

def renderApprovalDetail (alias_ threadId interruptId : String) (asJson : Bool) (status : Nat)
    (message : Option String) : Control Unit := do
  let waiting ← ask (.discoverWaitingForThread alias_ threadId)
  let match_ := waiting.find? fun item => item.interruptId = interruptId
  if asJson then
    if match_.isSome then reply status none none
    else reply 404 (some (if message.getD "" = "" then "no longer waiting" else message.getD "")) none
  else do
    let _ ← ask .connections
    let _ ← ask .snapshot
    ask .diagnostics
    reply status message none

/-- This is `parse_qs` as a list of fields. A strict reading refuses a field without a value sign. -/
def parseFields (library : Library) (keepBlank strict : Bool) : List (List Char) → Except Raised (List (String × String))
  | [] => .ok []
  | field :: rest =>
      let name := field.takeWhile fun char => char ≠ '='
      let value := (field.dropWhile fun char => char ≠ '=').drop 1
      let plain (text : List Char) := unquote library.replaced
        (String.ofList (text.map fun char => if char = '+' then ' ' else char))
      if '=' ∈ field then do
        let rest ← parseFields library keepBlank strict rest
        if keepBlank || value ≠ [] then .ok ((plain name, plain value) :: rest) else .ok rest
      else if strict then .error (.value "bad query field")
      else do
        let rest ← parseFields library keepBlank strict rest
        if keepBlank && field ≠ [] then .ok ((plain field, "") :: rest) else .ok rest

/-- The first value of each field counts. -/
def firstValues (fields : List (String × String)) : Form :=
  fields.foldl (fun form field => if field.1 ∈ form.keys then form else form.set field.1 field.2) .empty

def maxBody : Int := 1000000

/-- The body must be a form of a limited length. -/
def readForm (library : Library) (request : Request) : Except Raised Form := do
  if "application/x-www-form-urlencoded".toList <:+: ((request.header "Content-Type").getD "").toList then
    let text := (request.header "Content-Length").getD ""
    let length ← if text = "" then .ok 0 else library.int text
    if length ≤ 0 ∨ maxBody < length then .error (.value "request body missing or too large")
    else
      match String.fromUTF8? ⟨(request.body.take length.toNat).toArray⟩ with
      | none => .error (.value "invalid UTF-8")
      | some body => do
          let fields ← parseFields library true true (body.toList.splitOn '&')
          .ok (firstValues fields)
  else .error (.value "expected application/x-www-form-urlencoded body")

/-- This is `hmac.compare_digest` on the encoded texts. -/
def compareDigest (first second : String) : Bool := utf8 first = utf8 second

def origin (settings : Settings) : String := "http://" ++ settings.host ++ ":" ++ toString settings.port

/-- The cookie and the form both carry the token of the server. -/
def originAndCsrfOk (settings : Settings) (library : Library) (request : Request) (form : Form) : Bool :=
  if request.header "Origin" ≠ some (origin settings) then false
  else
    match library.cookies ((request.header "Cookie").getD "") with
    | none => false
    | some cookies =>
        let cookieToken := (cookies.get? "cord_csrf").getD ""
        let formToken := (form.get? "csrf_token").getD ""
        cookieToken ≠ "" && formToken ≠ "" && compareDigest cookieToken settings.csrfToken &&
          compareDigest formToken settings.csrfToken

/-- This is `form.get(name) or default`. -/
def Form.orElse (form : Form) (name default : String) : String :=
  let value := (form.get? name).getD ""
  if value = "" then default else value

/-- The input and the context of an execution are JSON. -/
def executionInput (library : Library) (form : Form) : Option (Json × Option Json) := do
  let graphInput ← library.loads (Form.orElse form "input" "{}")
  let contextRaw := strip ((form.get? "context").getD "")
  if contextRaw = "" then some (graphInput, none)
  else do
    let requestContext ← library.loads contextRaw
    some (graphInput, some requestContext)

/-- The outcome of `execute_run` decides the reply. -/
def afterExecute (alias_ graphId : String) (asJson : Bool) : Except Raised Executed → Control Unit
  | .error raised =>
      if raised.isValue then renderExecute alias_ graphId asJson 400 (some raised.message)
      else if raised = .runtime then renderExecute alias_ graphId asJson 200 (some ("unknown: submission outcome could " ++
        "not be confirmed. Check the deployment or the Run list before submitting again."))
      else Fallible.raise raised
  | .ok result => do
      if result.threadId ≠ "" ∧ result.runId ≠ "" then ask (.recordSubmission alias_ result.threadId result.runId)
      else pure ()
      if asJson then reply 200 none none
      else ask (.redirect ("/connections/" ++ quote alias_ ++ "/graphs/" ++ quote graphId ++ "/runs/" ++
        quote result.runId))

/-- A consumed nonce lets the form through to the execution. -/
def submitExecution (library : Library) (alias_ graphId : String) (connection : Connection) (form : Form)
    (asJson : Bool) : Control Unit := do
  let endpoint ← endpointOf connection
  let assistants ← ask (.listAssistants endpoint)
  if assistants.any fun item =>
      item.assistantId.pyEq (.ofText (form.get? "assistant")) && item.graphId.pyEq (.str graphId) then
    match executionInput library form with
    | none => renderExecute alias_ graphId asJson 400 (some "Input/context must be valid JSON")
    | some (graphInput, requestContext) => do
        let outcome ← (ask (.executeRun ⟨endpoint, (form.get? "assistant").getD "", (form.get? "subject").getD "",
          graphInput, requestContext⟩)).attempt
        afterExecute alias_ graphId asJson outcome
  else renderExecute alias_ graphId asJson 400 (some "Select an Assistant belonging to this graph")

/-- A missing nonce is not looked up. -/
def spendNonce (form : Form) : Control Bool :=
  let nonce := (form.get? "nonce").getD ""
  if nonce = "" then pure false else request (.consumeNonce nonce)

def handleExecutePost (library : Library) (alias_ graphId : String) (form : Form) (asJson : Bool) : Control Unit := do
  let connections ← ask .connections
  match connections.get? alias_ with
  | none => failure 404 "Unknown deployment"
  | some connection => do
      let spent ← spendNonce form
      if spent then submitExecution library alias_ graphId connection form asJson
      else
        renderExecute alias_ graphId asJson 409
          (some "Already submitted, or this form expired. Reload the page to get a fresh submission token.")

def afterRespond (alias_ threadId interruptId : String) (asJson : Bool) :
    Except Raised SubmissionResult → Control Unit
  | .error raised =>
      match raised with
      | .inbox message => renderApprovalDetail alias_ threadId interruptId asJson 404 (some message)
      | raised => Fallible.raise raised
  | .ok result =>
      if asJson then reply 200 none none
      else renderApprovalDetail alias_ threadId interruptId asJson (if result.status = "resumed" then 200 else 409) none

def handleRespondPost (library : Library) (alias_ threadId interruptId : String) (form : Form) (asJson : Bool) :
    Control Unit := do
  let connections ← ask .connections
  match connections.get? alias_ with
  | none => failure 404 "Unknown deployment"
  | some connection =>
      match library.loads (Form.orElse form "response_value" "null") with
      | none => renderApprovalDetail alias_ threadId interruptId asJson 400 (some "response_value must be valid JSON")
      | some responseValue =>
          let authEndpoint := connection.authEndpoint.getD ""
          if authEndpoint = "" then
            renderApprovalDetail alias_ threadId interruptId asJson 409
              (some "no authority configured for this deployment; approval is refused by default")
          else do
            let revision := (form.get? "revision").getD ""
            let outcome ← (ask (.submitResponse ⟨alias_, threadId, interruptId, (form.get? "approver").getD "",
              responseValue, if revision = "" then none else some revision, authEndpoint⟩)).attempt
            afterRespond alias_ threadId interruptId asJson outcome

/-- These exceptions become a page. -/
def orUnavailable (message : String) (action : Control Unit) : Control Unit := do
  let outcome ← action.attempt
  match outcome with
  | .ok _ => pure ()
  | .error raised => if raised.unavailable then failure 503 message else Fallible.raise raised

/-- A `LookupError` becomes a page of its own. -/
def orNotFound (action : Control Unit) : Control Unit := do
  let outcome ← action.attempt
  match outcome with
  | .ok _ => pure ()
  | .error raised => if raised = .lookup then failure 404 "View not found" else Fallible.raise raised

def acceptsJson (request : Request) : Bool :=
  decide ("application/json".toList <:+: ((request.header "Accept").getD "").toList)

/-- The start page, a Graph or a Run is shown, or the events of a Run are streamed. -/
def renderView (library : Library) (path : String) (asJson : Bool) : Control Unit := do
  let catalog ← ask .snapshot
  match select library.replaced catalog path with
  | none => Fallible.raise .lookup
  | some selected =>
      match selected.events, selected.run with
      | true, some run => ask (.stream run.runId)
      | true, none => Fallible.raise .other
      | false, run =>
          if asJson then reply 200 none none
          else do
            match run with
            | some run => ask (.actionSlot run.runId)
            | none => pure ()
            ask .diagnostics
            reply 200 none none

def route (library : Library) (path : String) (asJson : Bool) : Control Unit :=
  if path = "/static/viewer.css" ∨ path = "/static/viewer.js" then reply 200 none none
  else
    match matchExecute library path with
    | some (alias_, graphId) => renderExecute alias_ graphId asJson 200 none
    | none =>
        match matchApprovals library path with
        | some .list => renderApprovalsList asJson
        | some (.detail alias_ threadId interruptId) => renderApprovalDetail alias_ threadId interruptId asJson 200 none
        | none => renderView library path asJson

/-- A query without strict reading has no errors. -/
def formatJson (library : Library) (query : String) : Bool :=
  match parseFields library false false (query.toList.splitOn '&') with
  | .ok fields => fields.filter (fun field => field.1 = "format") = [("format", "json")]
  | .error _ => false

def doGet (library : Library) (incoming : Request) : Control Unit := do
  let url ← Fallible.ofExcept (library.urlsplit incoming.path)
  let asJson := formatJson library url.2 || acceptsJson incoming
  orUnavailable "Observation unavailable. Check connections and archive; retry this page."
    (orNotFound (route library url.1 asJson))

/-- A form that is authentic reaches its handler. -/
def guarded (settings : Settings) (library : Library) (incoming : Request) (action : Form → Control Unit) :
    Control Unit :=
  match readForm library incoming with
  | .error raised => if raised.isValue then failure 400 "Malformed request body" else Fallible.raise raised
  | .ok form =>
      if originAndCsrfOk settings library incoming form then
        orUnavailable "Observation unavailable. Check connections and archive; retry." (action form)
      else failure 403 "Cross-origin or missing/invalid CSRF token"

/-- Every other route stays read-only. -/
def doPost (settings : Settings) (library : Library) (incoming : Request) : Control Unit := do
  let url ← Fallible.ofExcept (library.urlsplit incoming.path)
  let asJson := acceptsJson incoming
  match matchExecute library url.1, matchApprovals library url.1 with
  | some (alias_, graphId), _ =>
      guarded settings library incoming fun form => handleExecutePost library alias_ graphId form asJson
  | none, some (.detail alias_ threadId interruptId) =>
      guarded settings library incoming fun form =>
        handleRespondPost library alias_ threadId interruptId form asJson
  | none, _ => failure 404 "View not found"

/-- The handler has no other methods. -/
def handle (settings : Settings) (library : Library) (incoming : Request) : Control Unit :=
  if incoming.method = "GET" then doGet library incoming
  else if incoming.method = "POST" then doPost settings library incoming
  else failure 501 "Unsupported method"

end Cordboard.Web
