import Cordboard.Construction.Discovery

namespace Cordboard
open Data Effects

/-- One poll gets the answer of the service, or no answer, and may read the clock. -/
structure Poll where
  answer : Option Json
  now : Time

/-- A loop has settled after this many polls. -/
structure Polled (A : Type) where
  polls : Nat
  outcome : Except Exc A

/-- The loop polls once more before the rest. -/
def Polled.more {A : Type} (polled : Polled A) : Polled A := { polled with polls := polled.polls + 1 }

namespace AegraClient

/-- The bounded status of an execution with its identities. -/
structure ClientResult where
  runId : String
  threadId : String
  status : String
  values : Option Json
  waitingReason : Option String

def ClientResult.success (runId threadId : String) (values : Json) : ClientResult :=
  ⟨runId, threadId, "success", some values, none⟩

def ClientResult.waiting (runId threadId reason : String) : ClientResult :=
  ⟨runId, threadId, "waiting", none, some reason⟩

/-- The state of the Thread carries the values of a finished Run. -/
def finalValues (state : Option Json) : Except Exc Json := do
  let current ← requested state
  current.index "values"

/-- The status in one answer, which the loop reads without the other fields. -/
def polledStatus (answer : Option Json) : Except Exc Json := do
  let current ← requested answer
  current.index "status"

/-- The Run may still go on. -/
def isWaiting (status : Json) : Bool := status.pyEq (.str "pending") || status.pyEq (.str "running")

/-- The loop of `_poll_until_settled`. A trace that ends too soon leaves it polling. -/
def pollUntil (runId threadId : String) (state : Option Json) (deadline : Time) :
    List Poll → Option (Polled ClientResult)
  | [] => none
  | poll :: rest =>
      match polledStatus poll.answer with
      | .error exc => some ⟨1, .error exc⟩
      | .ok status =>
          if status.pyEq (.str "success") then
            some ⟨1, (finalValues state).map (ClientResult.success runId threadId)⟩
          else if status.pyEq (.str "interrupted") then
            some ⟨1, .ok (ClientResult.waiting runId threadId "interrupted")⟩
          else if !isWaiting status then
            some ⟨1, .error ⟨.runtime, "Aegra execution did not succeed; inspect metadata and archive"⟩⟩
          else if deadline ≤ poll.now then some ⟨1, .ok (ClientResult.waiting runId threadId "deadline")⟩
          else (pollUntil runId threadId state deadline rest).map Polled.more

def pollUntilSettled (runId threadId : String) (timeout start : Time) (state : Option Json) (trace : List Poll) :
    Option (Polled ClientResult) := pollUntil runId threadId state (start + timeout) trace

end AegraClient

namespace AegraBackend
open AegraClient

/-- The loop of `wait_for_run`, poll by poll. -/
def waitUntil (threadId invocationId : String) (deadline : Time) :
    List Poll → Option (Polled (RuntimeStatus × ClientWaitOutcome))
  | [] => none
  | poll :: rest =>
      match describeRun poll.answer threadId invocationId with
      | .error exc =>
          if exc.isRuntimeError then some ⟨1, .ok (.unknown, .transportError)⟩ else some ⟨1, .error exc⟩
      | .ok run =>
          if isWaiting run.status then
            if deadline ≤ poll.now then
              some ⟨1, (runtimeStatus run.status).map fun status => (status, .deadlineReached)⟩
            else (waitUntil threadId invocationId deadline rest).map Polled.more
          else some ⟨1, (runtimeStatus run.status).map fun status => (status, .completed)⟩

/-- This is `wait_for_run` on a trace of its polls. -/
def waitForRunOn (threadId invocationId : String) (timeout start : Time) (trace : List Poll) :
    Option (Polled (RuntimeStatus × ClientWaitOutcome)) := waitUntil threadId invocationId (start + timeout) trace

end AegraBackend

end Cordboard
