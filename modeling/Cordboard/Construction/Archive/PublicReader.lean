import Cordboard.Construction.Archive.Langfuse
import Cordboard.Construction.Archive.Read
import Cordboard.Construction.Board
import Cordboard.Data.Group
import Mathlib.Algebra.Order.Ring.Unbundled.Rat

namespace Cordboard.Archive.Public
open Data Effects

/-- The reader tells a fixed status only. -/
inductive ReadStatus where
  | unavailable
  | apiError
  | invalidResponse
deriving DecidableEq

/-- These exceptions leave `compare`. -/
inductive Escape where
  | failure (failure : Failure)
  | overflow
deriving DecidableEq

/-- A read stops because the ingestion has not finished, with a status, or with another exception. -/
inductive Stop where
  | pending
  | read (status : ReadStatus)
  | escape (exception : Escape)
deriving DecidableEq

/-- The reader asks the clock, sends a request, or sleeps. -/
inductive Operation where
  | monotonic
  | get (path : String) (params : List (String × Json)) (timeout : Time)
  | sleep (seconds : Time)

/-- There is no response when `requests` raises. -/
@[reducible] def Operation.Answer : Operation → Type
  | .monotonic => Time
  | .get .. => Option HttpResponse
  | .sleep _ => Unit

abbrev signature : Signature := ⟨Operation, Operation.Answer⟩

/-- A method of the reader returns or stops. -/
abbrev Reading (A : Type) : Type := Fallible signature Stop A

/-- The text of a native time is read, refused, or out of the range of `datetime`. -/
inductive Instant where
  | instant (ns : Int)
  | refused
  | overflow

/-- The decoder turns each of its own exceptions into `invalid_response`. -/
def caught {A : Type} : Checked A → Except Stop A
  | .ok value => .ok value
  | .error _ => .error (.read .invalidResponse)

def invalidResponse {A : Type} : Except Stop A := .error (.read .invalidResponse)

section
variable (referenceNs : String → Instant)

/-- The native time of an observation is within one millisecond of the precise one. -/
def matchNative (native : Json) (precise : Nat) : Except Stop Unit :=
  match native with
  | .str text => match referenceNs text with
      | .instant ns => if (ns - precise).natAbs < 1000000 then .ok () else invalidResponse
      | .refused => invalidResponse
      | .overflow => .error (.escape .overflow)
  | _ => invalidResponse

/-- The parent is `None` when the observation names none. -/
def parentOf (row : Json) : Checked Json :=
  match row with
  | .obj members =>
      let value := (members.lookup "parentObservationId").getD .null
      if value.truthy then do
        let above ← identifier value 16
        .ok (.str above.text)
      else .ok .null
  | _ => .error .attribute

/-- This is `observation`. It takes nothing from the archive. -/
def observation (row : Json) : Except Stop NamedSpan := do
  let metadata ← caught (member row "metadata")
  match ← caught (member metadata "cordboard") with
  | .obj attrs =>
      match (member row "endTime").toOption.getD .null with
      | .null => .error .pending
      | finishTime => do
          let start ← caught (member metadata "cord_start_ns" >>= timestamp)
          let finish ← caught (member metadata "cord_end_ns" >>= timestamp)
          caught (require (start ≤ finish) "invalid public time range")
          let startTime ← caught (member row "startTime")
          matchNative referenceNs startTime start
          matchNative referenceNs finishTime finish
          let sid ← caught (member row "id" >>= (identifier · 16))
          let traceId ← caught (member row "traceId" >>= (identifier · 32))
          let parentSpanId ← caught (parentOf row)
          let name ← caught (member row "name")
          .ok ⟨⟨sid.text, traceId.text, some parentSpanId, some name,
            Dict.ofPairs (attrs.filter fun item => isCord item.1), start, finish, []⟩, sid.named⟩
  | _ => invalidResponse

end

/-- A path of one object. -/
def isSingle (path : String) : Bool :=
  "traces/".toList.isPrefixOf path.toList || "observations/".toList.isPrefixOf path.toList

/-- The end of `PublicReader.get` reads the response. -/
def answerOf (path : String) : Option HttpResponse → Except Stop Json
  | none => .error (.read .unavailable)
  | some response =>
      if response.statusCode = 404 ∧ isSingle path then .error .pending
      else if response.statusCode = 429 ∨ 500 ≤ response.statusCode then .error (.read .unavailable)
      else if response.statusCode ≠ 200 then .error (.read .apiError)
      else match response.body with
        | none => invalidResponse
        | some value => .ok value

def monotonic : Reading Time := @Fallible.request signature Stop .monotonic

def request (path : String) (params : List (String × Json)) (timeout : Time) : Reading (Option HttpResponse) :=
  @Fallible.request signature Stop (.get path params timeout)

def sleep (seconds : Time) : Reading Unit := @Fallible.request signature Stop (.sleep seconds)

def stop {A : Type} (reason : Stop) : Reading A := Fallible.raise reason

/-- This is `PublicReader.get`. A request may take what remains, and five seconds at most. -/
def get (path : String) (params : List (String × Json)) (deadline : Time) : Reading Json := do
  let now ← monotonic
  if deadline - now ≤ 0 then stop .pending
  else do
    let response ← request path params (min 5 (deadline - now))
    Fallible.ofExcept (answerOf path response)

/-- One page of the observations of a trace. -/
structure Page where
  rows : List Json
  total : Int
  pages : Int

/-- The page carries its own number. A boolean is no integer. -/
def readPage (number : Nat) (result : Json) : Checked Page := do
  let rows ← member result "data"
  let details ← member result "meta"
  let total ← member details "totalItems"
  let pages ← member details "totalPages"
  let own ← member details "page"
  match rows, total, pages, own with
  | .arr rows, .int total, .int pages, .int own =>
      if total < 0 ∨ pages < 0 ∨ own ≠ number then .error .value else .ok ⟨rows, total, pages⟩
  | _, _, _, _ => .error .value

def publicLocation : String := "public observation"

section
variable (referenceNs : String → Instant)

/-- A row is a span of the trace. A span that comes twice has to be equal. -/
def collect (traceId : String) (found : SpanMap) (row : Json) : Except Stop SpanMap := do
  let new ← observation referenceNs row
  if new.span.traceId ≠ traceId then invalidResponse
  else if (found.entries.get? new.span.spanId).any fun entry => !entry.span.pyEq new.span then invalidResponse
  else .ok (found.insert ⟨new.span, publicLocation⟩ new.named)

def observationParams (traceId : String) (number : Nat) : List (String × Json) :=
  [("traceId", .str traceId), ("page", .int number), ("limit", .int 100)]

/-- This is the loop of `PublicReader.trace`, from this page on. -/
def readPages (traceId : String) (deadline : Time) : Nat → Nat → SpanMap → Reading SpanMap
  | 0, _, _ => stop (.escape (.failure .unfinished))
  | fuel + 1, number, found => do
      let result ← get "observations" (observationParams traceId number) deadline
      let page ← Fallible.ofExcept (caught (readPage number result))
      let found ← Fallible.ofExcept (page.rows.foldlM (collect referenceNs traceId) found)
      if page.pages ≤ number then
        if (found.entries.keys.length : Int) ≠ page.total then stop .pending else pure found
      else if page.rows.isEmpty then stop (.read .invalidResponse)
      else readPages traceId deadline fuel (number + 1) found

/-- The session of a trace is its Subject. -/
def sessionOf (traceId : String) (value : Json) : Checked String := do
  match ← member value "id" with
  | .str own =>
      if own ≠ traceId then .error .value
      else match ← member value "sessionId" with
        | .str subject => .ok subject
        | _ => .error .value
  | _ => .error .value

/-- This is `PublicReader.trace`. -/
def trace (fuel : Nat) (traceId : String) (deadline : Time) : Reading (SpanMap × String) := do
  let found ← readPages referenceNs traceId deadline fuel 1 SpanMap.empty
  if found.entries.items.isEmpty then stop .pending
  else do
    let value ← get ("traces/" ++ traceId) [] deadline
    let subject ← Fallible.ofExcept (caught (sessionOf traceId value))
    pure (found, subject)

end

/-- The identifiers of the expected spans of each trace. -/
def byTrace (expected : SpanMap) : Dict String (List String) :=
  Dict.group (expected.entries.items.map fun item => (item.2.span.traceId, item.1))

/-- What one turn has read. -/
structure Turn where
  actual : SpanMap
  subjects : Dict String String
  complete : Bool
  sameIds : Bool

def Turn.start : Turn := ⟨SpanMap.empty, Dict.empty, true, true⟩

/-- The observations replace others under their identifiers. -/
def update (actual spans : SpanMap) : SpanMap where
  entries := actual.entries.update spans.entries
  keyed key entry found := by
    rw [Dict.get?_update, Option.or_eq_some_iff] at found
    exact found.elim (spans.keyed key entry) fun older => actual.keyed key entry older.2
  named key member :=
    (Dict.mem_keys_update.mp member).elim (spans.named key) (actual.named key)

/-- One trace has arrived. -/
def Turn.arrived (turn : Turn) (ids : List String) (traceId : String) (spans : SpanMap) (subject : String) : Turn where
  actual := update turn.actual spans
  subjects := turn.subjects.set traceId subject
  complete := turn.complete && ids.all fun sid => (spans.entries.get? sid).isSome
  sameIds := turn.sameIds && (ids.all fun sid => (spans.entries.get? sid).isSome) &&
    spans.entries.keys.all fun sid => ids.contains sid

/-- A finished reading lasts until the deadline at most, whatever its status. -/
inductive CompareStatus where
  | matched
  | mismatch
  | timeout
  | read (status : ReadStatus)
deriving DecidableEq

/-- The result of `compare`. -/
structure Report where
  status : CompareStatus
  archive : List Row
  langfuse : Option (List Row)
  expectedSpans : Nat
  observedSpans : Nat

/-- This is the match of the fields. Each expected span has arrived by now. -/
def agrees (expected : SpanMap) (turn : Turn) : Bool :=
  turn.sameIds && expected.entries.items.all fun item =>
    (turn.actual.entries.get? item.1).any fun other =>
      (projection item.2.span).pyEq (projection other.span) && sameSubject item.2.span turn.subjects

/-- This is the end of a turn in which each span has arrived. -/
def settle (expected : SpanMap) (allExpected : List Row) (reference top : Int) (turn : Turn) :
    Checked (CompareStatus × Option (List Row)) :=
  match querySpans turn.actual reference turn.actual.entries.keys.length with
  | .error (.archive _) => .ok (.mismatch, none)
  | .error failure => .error failure
  | .ok rows =>
      .ok (if agrees expected turn && rows == allExpected then .matched else .mismatch, some (rows.take top.toNat))

section
variable (referenceNs : String → Instant)

/-- The traces are read in the order of their identifiers. -/
def readTraces (groups : Dict String (List String)) (fuel : Nat) (deadline : Time) : List String → Turn → Reading Turn
  | [], turn => pure turn
  | traceId :: rest, turn => do
      let (spans, subject) ← trace referenceNs fuel traceId deadline
      readTraces groups fuel deadline rest (turn.arrived (groups.members traceId) traceId spans subject)

/-- The archive is frozen before the first request. -/
structure Frozen where
  expected : SpanMap
  allExpected : List Row

/-- The checks of `compare` before its first request. -/
def freeze (archive : Checked SpanMap) (reference top : Int) (wait poll : Time) : Checked Frozen :=
  if wait ≤ 0 ∨ poll ≤ 0 then .error .value
  else do
    let expected ← archive
    let allExpected ← querySpans expected reference expected.entries.keys.length
    require (0 < top) "top must be a positive integer"
    .ok ⟨expected, allExpected⟩

/-- The deadline, the interval, and the bounds of one comparison. -/
structure Schedule where
  deadline : Time
  poll : Time
  pages : Nat

section
variable (frozen : Frozen) (reference top : Int) (schedule : Schedule)

/-- The report shows what the last complete reading observed. -/
def report (status : CompareStatus) (langfuse : Option (List Row)) (observed : Nat) : Report :=
  ⟨status, frozen.allExpected.take top.toNat, langfuse, frozen.expected.entries.keys.length, observed⟩

/-- A turn ends the comparison, or it leaves a status behind. -/
inductive Turned where
  | done (report : Report)
  | again (status : CompareStatus) (observed : Nat)

/-- One turn of the loop of `compare`. -/
def turn (observed : Nat) : Reading Turned := do
  let groups := byTrace frozen.expected
  match ← (readTraces referenceNs groups schedule.pages schedule.deadline (groups.sortBy id).keys Turn.start).attempt with
  | .error .pending => pure (.again .timeout observed)
  | .error (.read .unavailable) => pure (.again (.read .unavailable) observed)
  | .error (.read status) => pure (.done (report frozen top (.read status) none observed))
  | .error (.escape exception) => stop (.escape exception)
  | .ok turn =>
      let observed := turn.actual.entries.keys.length
      if turn.complete then
        match settle frozen.expected frozen.allExpected reference top turn with
        | .ok (status, rows) => pure (.done (report frozen top status rows observed))
        | .error failure => stop (.escape (.failure failure))
      else pure (.again .timeout observed)

/-- This is the loop of `compare`. -/
def pollLoop : Nat → CompareStatus → Nat → Reading Report
  | 0, _, _ => stop (.escape (.failure .unfinished))
  | fuel + 1, lastStatus, observed => do
      let now ← monotonic
      if now < schedule.deadline then
        match ← turn referenceNs frozen reference top schedule observed with
        | .done report => pure report
        | .again status observed => do
            let remaining := schedule.deadline - (← monotonic)
            if 0 < remaining then sleep (min schedule.poll remaining)
            pollLoop fuel status observed
      else pure (report frozen top lastStatus none observed)

end

/-- This is `compare` on an archive that was read. -/
def compare (archive : Checked SpanMap) (reference top : Int) (wait poll : Time) (pages turns : Nat) :
    Reading Report :=
  match freeze archive reference top wait poll with
  | .error failure => stop (.escape (.failure failure))
  | .ok frozen => do
      let now ← monotonic
      pollLoop referenceNs frozen reference top ⟨now + wait, poll, pages⟩ turns .timeout 0

end

end Cordboard.Archive.Public
