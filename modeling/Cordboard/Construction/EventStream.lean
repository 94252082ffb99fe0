import Cordboard.Construction.Discovery

namespace Cordboard.AegraClient

/-- One frame of the stream as the reader delivers it. -/
structure SseEvent where
  event : String
  dataText : String
  eventId : Option String

/-- The reader keeps these values until the next blank line. -/
structure Pending where
  event : Option String
  dataLines : List String
  eventId : Option String

def Pending.empty : Pending := ⟨none, [], none⟩

/-- The text after the label of a field. -/
def afterLabel (label rawLine : String) : Option String :=
  if label.toList.isPrefixOf rawLine.toList then some (String.ofList (rawLine.toList.drop label.length)) else none

/-- A line that is not empty changes at most one value. -/
def Pending.read (pending : Pending) (rawLine : String) : Pending :=
  match afterLabel ":" rawLine, afterLabel "event:" rawLine, afterLabel "data:" rawLine, afterLabel "id:" rawLine with
  | some _, _, _, _ => pending
  | none, some text, _, _ => { pending with event := some (strip text) }
  | none, none, some text, _ => { pending with dataLines := pending.dataLines ++ [strip text] }
  | none, none, none, some text => { pending with eventId := some (strip text) }
  | none, none, none, none => pending

/-- A blank line ends a frame if there was one. -/
def Pending.flush (pending : Pending) : Option SseEvent :=
  if pending.event.isSome || !pending.dataLines.isEmpty then
    let event := pending.event.getD ""
    some ⟨if event = "" then "message" else event, "\n".intercalate pending.dataLines, pending.eventId⟩
  else none

/-- The loop of `_iter_sse_events` over the lines of one response. -/
def iterSseEvents : Pending → List String → List SseEvent
  | _, [] => []
  | pending, rawLine :: rest =>
      if rawLine = "" then pending.flush.toList ++ iterSseEvents Pending.empty rest
      else iterSseEvents (pending.read rawLine) rest

def lifecycleEvents : List String := ["metadata", "end", "error"]

/-- One event that the client yields, with its decoded data. -/
structure Delivered where
  event : String
  data : Json
  eventId : Option String

/-- The loop body drops each other event, and data that is not JSON. -/
def SseEvent.deliver (loads : String → Option Json) (sse : SseEvent) : Option Delivered :=
  if sse.event ∈ lifecycleEvents then
    (if sse.dataText = "" then some (.obj []) else loads sse.dataText).map fun data => ⟨sse.event, data, sse.eventId⟩
  else none

/-- The service is unreachable, answers outside the success codes, or streams lines and may drop the connection. -/
inductive Reply where
  | unreachable
  | refused
  | stream (lines : List String) (dropped : Bool)

/-- A generator yields events, and then it returns or raises. -/
structure Yielded where
  events : List Delivered
  raised : Option Exc

def streamFailed : Exc := ⟨.runtime, "Aegra stream request failed; check service readiness and input contract"⟩

/-- The server gets the `Last-Event-ID` header when there is one. -/
def streamLifecycle (loads : String → Option Json) (server : Option String → Reply) (threadId runId : String)
    (lastEventId : Option String) : Yielded :=
  if blank threadId then ⟨[], some ⟨.value, "Thread ID must be a non-empty string"⟩⟩
  else if blank runId then ⟨[], some ⟨.value, "Run ID must be a non-empty string"⟩⟩
  else
    match server (lastEventId.filter (· ≠ "")) with
    | .unreachable => ⟨[], some streamFailed⟩
    | .refused => ⟨[], some streamFailed⟩
    | .stream lines dropped =>
        ⟨(iterSseEvents Pending.empty lines).filterMap (SseEvent.deliver loads), if dropped then some streamFailed else none⟩

/-- The loop head is reached at this time, and a caught error reads the clock again. -/
structure Round where
  now : Time
  server : Option String → Reply
  caught : Time

/-- The loop stops at a time, an error leaves it, or its rounds end while it still watches. -/
inductive WatchEnd where
  | stopped (now : Time)
  | raised (exc : Exc)
  | watching

structure Watched where
  events : List Delivered
  ending : WatchEnd

structure WatchState where
  lastEventId : Option String
  sawTerminal : Bool

/-- Each event moves the resume position when it has an identifier. -/
def WatchState.step (state : WatchState) (delivered : Delivered) : WatchState where
  lastEventId :=
    match delivered.eventId with
    | some eventId => if eventId = "" then state.lastEventId else some eventId
    | none => state.lastEventId
  sawTerminal := state.sawTerminal || delivered.event == "end" || delivered.event == "error"

/-- The loop of `watch_lifecycle`. Each connection serves one round. -/
def watchFrom (loads : String → Option Json) (threadId runId : String) (deadline : Time) :
    WatchState → List Round → Watched
  | _, [] => ⟨[], .watching⟩
  | state, round :: rest =>
      if state.sawTerminal = false ∧ round.now < deadline then
        let yielded := streamLifecycle loads round.server threadId runId state.lastEventId
        let next := watchFrom loads threadId runId deadline (yielded.events.foldl WatchState.step state) rest
        match yielded.raised with
        | none => ⟨yielded.events ++ next.events, next.ending⟩
        | some exc =>
            if exc.isRuntimeError ∧ round.caught < deadline then ⟨yielded.events ++ next.events, next.ending⟩
            else ⟨yielded.events, .raised exc⟩
      else ⟨[], .stopped round.now⟩

def watchLifecycle (loads : String → Option Json) (threadId runId : String) (timeout start : Time)
    (rounds : List Round) : Watched := watchFrom loads threadId runId (start + timeout) ⟨none, false⟩ rounds

end Cordboard.AegraClient
