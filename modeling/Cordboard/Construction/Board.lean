import Cordboard.Construction.Json
import Cordboard.Effects.Interleaving

namespace Cordboard
open Data Effects

/-- A clock reading is an exact number of seconds. -/
abbrev Time := ℚ

/-- A connection without a launch command names an external Deployment. -/
structure Connection where
  endpoint : String
  launch : List String
  idleAfter : Option Time
deriving DecidableEq

/-- Presence of a launch command makes a Deployment managed. -/
def Connection.isManaged (connection : Connection) : Bool := !connection.launch.isEmpty

/-- A source emits one of the four Signal types. -/
inductive SignalType where
  | manual
  | file
  | schedule
  | runFinished
deriving DecidableEq

def SignalType.text : SignalType → String
  | .manual => "manual"
  | .file => "file"
  | .schedule => "schedule"
  | .runFinished => "run.finished"

/-- A `run.finished` Rule filters by `when`, and each other Rule filters by `match`. -/
structure Rule where
  name : String
  signalType : SignalType
  whenPaths : List (String × Json)
  matchPaths : List (String × Json)
  connection : String
  assistant : String
  subject : String
  input : List (String × String)

/-- This record holds one (Assistant, Subject) pair. -/
structure ConcurrencyClaim where
  claimedAt : Time
deriving DecidableEq

inductive LifecycleStatus where
  | running
  | stopped
  | startFailed
deriving DecidableEq

/-- This record tracks one managed Deployment alias. -/
structure LifecycleRecord where
  status : LifecycleStatus
  pid : Option Nat
  activeRuns : Nat
  startedAt : Option Time
  lastActive : Time
  lastError : Option String
deriving DecidableEq

/-- This record remembers one submitted Signal. -/
structure SignalClaim where
  claimedAt : Time
deriving DecidableEq

inductive ResponseOutcome where
  | resumed
  | rejected
  | unknown
deriving DecidableEq

/-- This record holds the response slot of one interrupt. -/
structure ResponseClaim where
  claimedAt : Time
  outcome : Option ResponseOutcome
  resolvedAt : Option Time
deriving DecidableEq

/-- This record connects an outstanding invocation with the claims that it still holds. -/
structure PendingEntry where
  deployment : String
  threadId : String
  invocationId : String
  assistant : String
  subject : String
  cascadeDepth : Nat
  concurrencyHeld : Bool
  deploymentHeld : Bool
  recordedAt : Time
deriving DecidableEq

/-- The first API Run ID of a Thread names its logical Run. -/
structure LogicalRun where
  runId : String
  apiRunIds : List String
deriving DecidableEq

inductive Disposition where
  | resumed
  | halted
deriving DecidableEq

/-- This record holds the approval clock of one waiting Thread. -/
structure ExpiryRecord where
  runId : String
  waitingSince : Time
  reminderAt : Time
  timeoutAt : Time
  reminded : Bool
  remindedAt : Option Time
  disposition : Option Disposition
  resolvedAt : Option Time
deriving DecidableEq

/-- This diagnostic carries no payload. -/
structure UnmatchedRecord where
  signalType : SignalType
  signalId : String
  reason : String
deriving DecidableEq

/-- Each store is one file under `.cordboard`. -/
inductive Store where
  | connections
  | rules
  | concurrency
  | lifecycle
  | signalDedupe
  | responseDedupe
  | pending
  | continuity
  | expiry
  | unmatched
deriving DecidableEq

/-- A store holds decoded records. The keys are the texts that `json.dumps` encodes. -/
@[reducible] def Store.Data : Store → Type
  | .connections => Dict String Connection
  | .rules => List Rule
  | .concurrency => Dict (String × String) ConcurrencyClaim
  | .lifecycle => Dict String LifecycleRecord
  | .signalDedupe => Dict String SignalClaim
  | .responseDedupe => Dict (String × String × String) ResponseClaim
  | .pending => Dict (String × String) PendingEntry
  | .continuity => Dict String (Dict String LogicalRun)
  | .expiry => Dict String (Dict String ExpiryRecord)
  | .unmatched => List UnmatchedRecord

/-- A file can fail to decode, or decode to the wrong shape. -/
inductive Corruption where
  | notJson
  | wrongShape
deriving DecidableEq

/-- A reader finds no file, an unreadable file, or the stored data. -/
inductive File (A : Type) where
  | missing
  | unreadable (corruption : Corruption)
  | content (data : A)
deriving DecidableEq

/-- The board directory has one file for each store. -/
abbrev Board := (store : Store) → File store.Data

/-- Two stores guard a whole check-and-set with an exclusive lock on a file of their own. -/
inductive LockFile where
  | concurrency
  | responseDedupe
deriving DecidableEq

/-- The handlers distinguish exceptions by class. Each class up to `approvalInbox` is a `ValueError`. -/
inductive ExcKind where
  | value
  | mapping
  | invalidConnection
  | invalidRule
  | invalidSignal
  | concurrency
  | deploymentLifecycle
  | signalDedupe
  | responseDedupe
  | pendingCompletion
  | runContinuity
  | unknownThread
  | approvalExpiry
  | unknownWaitingApproval
  | approvalInbox
  | runtime
  | os
  | request
  | key
  | index
  | type
  | attribute
  | other
deriving DecidableEq

structure Exc where
  kind : ExcKind
  message : String
deriving DecidableEq

/-- This test is `except RuntimeError`. -/
def Exc.isRuntimeError (exc : Exc) : Bool := exc.kind == .runtime

/-- This test is `except ValueError`. -/
def Exc.isValueError (exc : Exc) : Bool :=
  match exc.kind with
  | .runtime | .os | .request | .key | .index | .type | .attribute | .other => false
  | _ => true

/-- The wait of `aegra_client.execute` ends in one of these ways. -/
inductive ExecuteStatus where
  | success
  | interrupted
  | deadline
deriving DecidableEq

/-- `aegra_client.execute` returns both identities and a bounded status. -/
structure ExecuteResult where
  runId : String
  threadId : String
  status : ExecuteStatus
deriving DecidableEq

/-- `aegra_client.describe_run` returns the identity and the raw status of one invocation. -/
structure RunInfo where
  assistantId : Option String
  status : String
  subject : Option String
deriving DecidableEq

/-- An operator's claimed answer names the revision that the operator read. -/
structure AuthSubmission where
  deployment : String
  assistant : String
  threadId : String
  interruptId : String
  approver : String
  responseValue : Json
  revision : Option String

structure AuthDecision where
  accepted : Bool
  reason : String
deriving DecidableEq

/-- The body of an HTTP response decodes as JSON or does not decode. -/
structure HttpResponse where
  statusCode : Nat
  body : Option Json

/-- The program calls code and services outside the board directory. -/
inductive Call where
  | isAlive (endpoint : String)
  | launch (deployment : String) (command : List String)
  | healthCheck (endpoint : String) (healthTimeout : Time)
  | stop (deployment : String) (pid : Option Nat)
  | execute (endpoint assistant subject : String) (graphInput : List (String × Json)) (timeout : Time)
      (causedByRunId : Option String) (cascadeDepth : Nat)
  | describeRun (endpoint threadId invocationId : String)
  | lastPoll (endpoint threadId invocationId : String) (timeout : Time)
  | threadState (endpoint threadId : String)
  | submitResume (endpoint threadId assistant : String) (resumeValue : Json)
  | authorize (submission : AuthSubmission) (currentRevision : Json) (stillPending : Bool)
  | postAuthorize (url : String) (body : Json)
  | halt (deployment threadId : String)

/-- A call returns a value or raises. -/
@[reducible] def Call.Answer : Call → Type
  | .isAlive .. => Bool
  | .launch .. => Except Exc Nat
  | .healthCheck .. => Bool
  | .stop .. => Unit
  | .execute .. => Except Exc ExecuteResult
  | .describeRun .. => Except Exc RunInfo
  | .lastPoll .. => Except Exc String
  | .threadState .. => Except Exc Json
  | .submitResume .. => Except Exc String
  | .authorize .. => Except Exc AuthDecision
  | .postAuthorize .. => Except Exc HttpResponse
  | .halt .. => Except Exc Unit

/-- A claim is held by one hop of `route_signal`, by a submission, or by a pending entry. -/
inductive Holder where
  | hop (cascadeDepth : Nat)
  | submission
  | entry (deployment threadId : String)
deriving DecidableEq

/-- A pending entry is recorded, updated, or resolved. -/
inductive PendingChange where
  | recorded (old : Option PendingEntry) (new : PendingEntry)
  | updated (old new : PendingEntry)
  | resolved (old : PendingEntry)
deriving DecidableEq

/-- The operations learn these states of an invocation. -/
inductive Learned where
  | active
  | interrupted
  | succeeded
  | terminated
  | transportFailure
deriving DecidableEq

/-- This is the payload of a `run.finished` Signal. -/
structure FinishedRun where
  runId : String
  subject : String
  connection : String
  assistant : String
  status : String
  cascadeDepth : Nat
deriving DecidableEq

/-- A note marks a point of the source for the proofs. It has no effect on the board. -/
inductive Note where
  | activityTaken (deployment : String) (holder : Holder)
  | activityReleased (deployment : String) (holder : Holder) (effective : Bool)
  | concurrencyTaken (assistant subject : String) (holder : Holder)
  | concurrencyReleased (assistant subject : String) (holder : Holder) (effective : Bool)
  | concurrencyRenewed (assistant subject : String) (holder : Holder)
  | signalClaimed (signalId : String) (now : Time) (granted : Bool)
  | executing (signalId : String) (now : Time)
  | responseClaimed (deployment threadId interruptId : String) (granted : Bool)
  | resuming (deployment threadId interruptId : String)
  | pendingChanged (deployment threadId : String) (change : PendingChange)
  | pendingReturned (deployment threadId : String)
  | learned (deployment threadId invocationId : String) (state : Learned)
  | observed (deployment threadId invocationId : String) (state : Learned)
  | cascaded (deployment threadId : String)
  | routing (run : FinishedRun)
deriving DecidableEq

/-- A program reads and replaces whole files, locks files, calls out, and leaves notes. -/
inductive Effect where
  | read (store : Store)
  | write (store : Store) (data : store.Data)
  | lock (file : LockFile)
  | unlock (file : LockFile)
  | call (target : Call)
  | note (point : Note)

@[reducible] def Effect.Answer : Effect → Type
  | .read store => File store.Data
  | .write .. => Unit
  | .lock _ => Unit
  | .unlock _ => Unit
  | .call target => target.Answer
  | .note _ => Unit

/-- The signature of every program on a board. -/
abbrev signature : Signature := ⟨Effect, Effect.Answer⟩

/-- A Python function acts on the board and returns or raises. -/
abbrev Py (A : Type) : Type := Fallible signature Exc A

def raise {A : Type} (kind : ExcKind) (message : String) : Py A := Fallible.raise ⟨kind, message⟩

def readFile (store : Store) : Py (File store.Data) := @Fallible.request signature Exc (Effect.read store)

def lock (file : LockFile) : Py Unit := @Fallible.request signature Exc (Effect.lock file)

def unlock (file : LockFile) : Py Unit := @Fallible.request signature Exc (Effect.unlock file)

def note (point : Note) : Py Unit := @Fallible.request signature Exc (Effect.note point)

def call (target : Call) : Py target.Answer := @Fallible.request signature Exc (Effect.call target)

/-- The body runs only under the condition. -/
def whenever (condition : Bool) (body : Py Unit) : Py Unit := if condition then body else pure ()

/-- Each text must be a non-empty string. -/
def requireTexts (kind : ExcKind) : List (String × String) → Py Unit
  | [] => pure ()
  | (name, value) :: rest =>
      if blank value then raise kind (name ++ " must be a non-empty string") else requireTexts kind rest

end Cordboard
