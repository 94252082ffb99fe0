import Cordboard.Construction.Archive.PublicReader
import Cordboard.Data.Outcome
import Cordboard.Effects.Telling
import Cordboard.Proof.Archive.Projection

namespace Cordboard.Archive.Public
open Data Effects Fallible

/-- The service answered the request with this document. -/
def Served (events : List signature.Event) (path : String) (params : List (String × Json)) (value : Json) : Prop :=
  ∃ timeout response, (⟨.get path params timeout, some response⟩ : signature.Event) ∈ events ∧
    response.statusCode = 200 ∧ response.body = some value

theorem Served.mono {events more : List signature.Event} {path : String} {params : List (String × Json)} {value : Json}
    (served : Served events path params value) (within : events ⊆ more) : Served more path params value := by
  obtain ⟨timeout, response, sent, answered⟩ := served
  exact ⟨timeout, response, within sent, answered⟩

/-- Only a response with the status 200 and a JSON body has a value. -/
theorem answerOf_ok {path : String} {reply : Option HttpResponse} {value : Json} (answered : answerOf path reply = .ok value) :
    ∃ response, reply = some response ∧ response.statusCode = 200 ∧ response.body = some value := by
  cases reply with
  | none => cases answered
  | some response =>
      simp only [answerOf] at answered
      split at answered
      · cases answered
      split at answered
      · cases answered
      split at answered
      · cases answered
      rename_i status
      cases body : response.body with
      | none =>
          rw [body] at answered
          cases answered
      | some found =>
          rw [body] at answered
          exact ⟨response, rfl, not_not.mp status, body.trans (congrArg some (Except.ok.inj answered))⟩

theorem monotonic_tells : Tells (fun (events : List signature.Event) now => events = [⟨.monotonic, now⟩]) monotonic :=
  @tells_request signature Stop Operation.monotonic

theorem request_tells (path : String) (params : List (String × Json)) (timeout : Time) :
    Tells (fun (events : List signature.Event) reply => events = [⟨.get path params timeout, reply⟩]) (request path params timeout) :=
  @tells_request signature Stop (Operation.get path params timeout)

theorem sleep_tells (seconds : Time) :
    Tells (fun (events : List signature.Event) answer => events = [⟨.sleep seconds, answer⟩]) (sleep seconds) :=
  @tells_request signature Stop (Operation.sleep seconds)

/-- A value that `get` returns was served. -/
theorem get_tells (path : String) (params : List (String × Json)) (deadline : Time) :
    Tells (fun events value => Served events path params value) (get path params deadline) := by
  unfold get
  apply Tells.seq monotonic_tells
  intro before now _
  split
  · exact tells_raise _
  · apply Tells.seq (request_tells path params (min 5 (deadline - now)))
    intro sent response only
    apply tells_ofExcept
    intro value answered
    obtain ⟨reply, rfl, status, body⟩ := answerOf_ok answered
    refine ⟨min 5 (deadline - now), reply, List.mem_append_right _ (List.mem_append_left _ ?_), status, body⟩
    rw [only]
    exact List.mem_cons_self

theorem caught_ok {A : Type} {checked : Checked A} {value : A} (done : caught checked = .ok value) :
    checked = .ok value := by
  cases checked with
  | ok found => exact congrArg Except.ok (Except.ok.inj done)
  | error failure => cases done

section
variable (referenceNs : String → Instant)

/-- The pages before this number were served, and these are their spans. -/
inductive Listed (events : List signature.Event) (traceId : String) : Nat → SpanMap → Prop
  | start : Listed events traceId 1 SpanMap.empty
  | page {number : Nat} {earlier found : SpanMap} {value : Json} {page : Page}
      (listed : Listed events traceId number earlier)
      (served : Served events "observations" (observationParams traceId number) value)
      (read : readPage number value = .ok page)
      (rows : page.rows.foldlM (collect referenceNs traceId) earlier = .ok found) :
      Listed events traceId (number + 1) found

/-- Each page of the trace was served, and the last page counts all the spans. -/
structure Collected (events : List signature.Event) (traceId : String) (found : SpanMap) : Prop where
  listed : ∃ number earlier value page, Listed referenceNs events traceId number earlier ∧
    Served events "observations" (observationParams traceId number) value ∧ readPage number value = .ok page ∧
    page.rows.foldlM (collect referenceNs traceId) earlier = .ok found ∧ page.pages ≤ number ∧
    page.total = found.entries.keys.length

/-- The service told the session of the trace. -/
def Session (events : List signature.Event) (traceId subject : String) : Prop :=
  ∃ value, Served events ("traces/" ++ traceId) [] value ∧ sessionOf traceId value = .ok subject

variable {referenceNs} {events more : List signature.Event} {traceId : String}

theorem Listed.mono {number : Nat} {found : SpanMap} (listed : Listed referenceNs events traceId number found)
    (within : events ⊆ more) : Listed referenceNs more traceId number found := by
  induction listed with
  | start => exact .start
  | page _ served read rows ih => exact .page ih (served.mono within) read rows

theorem Collected.mono {found : SpanMap} (collected : Collected referenceNs events traceId found) (within : events ⊆ more) :
    Collected referenceNs more traceId found := by
  obtain ⟨number, earlier, value, page, listed, served, rest⟩ := collected.listed
  exact ⟨number, earlier, value, page, listed.mono within, served.mono within, rest⟩

theorem Session.mono {subject : String} (session : Session events traceId subject) (within : events ⊆ more) :
    Session more traceId subject := by
  obtain ⟨value, served, read⟩ := session
  exact ⟨value, served.mono within, read⟩

/-- The loop continues a listing until all pages have been served. -/
theorem readPages_tells (deadline : Time) (fuel number : Nat) (found : SpanMap) (past : List signature.Event)
    (listed : Listed referenceNs past traceId number found) :
    Tells (fun events spans => Collected referenceNs (past ++ events) traceId spans)
      (readPages referenceNs traceId deadline fuel number found) := by
  induction fuel generalizing number found past with
  | zero => exact tells_raise _
  | succ fuel ih =>
      rw [readPages]
      apply Tells.seq (get_tells "observations" (observationParams traceId number) deadline)
      intro sent result served
      apply Tells.seq (K := fun events page => events = [] ∧ readPage number result = .ok page)
        (tells_ofExcept fun page read => ⟨rfl, caught_ok read⟩)
      rintro _ page ⟨rfl, read⟩
      apply Tells.seq (K := fun events next => events = [] ∧
        page.rows.foldlM (collect referenceNs traceId) found = .ok next) (tells_ofExcept fun next rows => ⟨rfl, rows⟩)
      rintro _ next ⟨rfl, rows⟩
      have listed := listed.mono (List.subset_append_left past sent)
      have served := served.mono (List.subset_append_right past sent)
      split
      · rename_i last
        split
        · exact tells_raise _
        · rename_i counted
          apply tells_pure
          simp only [List.append_nil]
          exact ⟨number, found, result, page, listed, served, read, rows, last, (not_not.mp counted).symm⟩
      · split
        · exact tells_raise _
        · have later := ih (number + 1) next (past ++ sent) (.page listed served read rows)
          simpa only [List.append_nil, List.nil_append, List.append_assoc] using later

/-- A trace that arrives was collected, and its session was told. -/
theorem trace_tells (fuel : Nat) (deadline : Time) :
    Tells (fun events read => Collected referenceNs events traceId read.1 ∧ Session events traceId read.2)
      (trace referenceNs fuel traceId deadline) := by
  rw [trace]
  apply Tells.seq (readPages_tells deadline fuel 1 SpanMap.empty [] .start)
  intro paged found collected
  split
  · exact tells_raise _
  · apply Tells.seq (get_tells ("traces/" ++ traceId) [] deadline)
    intro sent value served
    apply Tells.seq (K := fun events subject => events = [] ∧ sessionOf traceId value = .ok subject)
      (tells_ofExcept fun subject read => ⟨rfl, caught_ok read⟩)
    rintro _ subject ⟨rfl, read⟩
    apply tells_pure
    simp only [List.append_nil]
    exact ⟨collected.mono (List.subset_append_left paged sent), value,
      served.mono (List.subset_append_right paged sent), read⟩

end

/-- One trace as it arrived. -/
structure TraceRead where
  traceId : String
  spans : SpanMap
  subject : String

/-- The turn takes one more trace. -/
def Turn.take (groups : Dict String (List String)) (turn : Turn) (read : TraceRead) : Turn :=
  turn.arrived (groups.members read.traceId) read.traceId read.spans read.subject

/-- The identifiers that the archive expects have arrived. -/
def TraceRead.complete (groups : Dict String (List String)) (read : TraceRead) : Bool :=
  (groups.members read.traceId).all fun sid => (read.spans.entries.get? sid).isSome

/-- The identifiers of the trace are those that the archive expects. -/
def TraceRead.exact (groups : Dict String (List String)) (read : TraceRead) : Bool :=
  read.complete groups && read.spans.entries.keys.all fun sid => (groups.members read.traceId).contains sid

section
variable {groups : Dict String (List String)}

theorem take_complete (reads : List TraceRead) (turn : Turn) :
    (reads.foldl (Turn.take groups) turn).complete = (turn.complete && reads.all (TraceRead.complete groups)) := by
  induction reads generalizing turn with
  | nil => simp
  | cons read rest ih =>
      rw [List.foldl_cons, ih, List.all_cons, ← Bool.and_assoc]
      rfl

theorem take_sameIds (reads : List TraceRead) (turn : Turn) :
    (reads.foldl (Turn.take groups) turn).sameIds = (turn.sameIds && reads.all (TraceRead.exact groups)) := by
  induction reads generalizing turn with
  | nil => simp
  | cons read rest ih =>
      rw [List.foldl_cons, ih, List.all_cons, ← Bool.and_assoc, TraceRead.exact, ← Bool.and_assoc]
      rfl

/-- An observation of the turn is an observation of one of its traces. -/
theorem take_actual {reads : List TraceRead} {turn : Turn} {key : String} {entry : Entry}
    (found : (reads.foldl (Turn.take groups) turn).actual.entries.get? key = some entry) :
    turn.actual.entries.get? key = some entry ∨ ∃ read ∈ reads, read.spans.entries.get? key = some entry := by
  induction reads generalizing turn with
  | nil => exact .inl found
  | cons read rest ih =>
      rcases ih found with first | ⟨other, later, held⟩
      · have here : (turn.actual.entries.update read.spans.entries).get? key = some entry := first
        rw [Dict.get?_update, Option.or_eq_some_iff] at here
        rcases here with own | older
        · exact .inr ⟨read, List.mem_cons_self, own⟩
        · exact .inl older.2
      · exact .inr ⟨other, List.mem_cons_of_mem _ later, held⟩

/-- No observation is lost. -/
theorem take_covers {reads : List TraceRead} {turn : Turn} {key : String}
    (held : key ∈ turn.actual.entries.keys ∨ ∃ read ∈ reads, key ∈ read.spans.entries.keys) :
    key ∈ (reads.foldl (Turn.take groups) turn).actual.entries.keys := by
  induction reads generalizing turn with
  | nil => simpa using held
  | cons read rest ih =>
      apply ih
      have next : key ∈ (turn.take groups read).actual.entries.keys ↔
          key ∈ read.spans.entries.keys ∨ key ∈ turn.actual.entries.keys := Dict.mem_keys_update
      rcases held with older | ⟨other, inside, own⟩
      · exact .inl (next.mpr (.inr older))
      · rcases List.mem_cons.mp inside with rfl | later
        · exact .inl (next.mpr (.inl own))
        · exact .inr ⟨other, later, own⟩

/-- The Subject of a trace is not replaced by that of another trace. -/
theorem take_subjects {reads : List TraceRead} (distinct : (reads.map TraceRead.traceId).Nodup) {turn : Turn} :
    (∀ read ∈ reads, (reads.foldl (Turn.take groups) turn).subjects.get? read.traceId = some read.subject) ∧
    ∀ traceId, traceId ∉ reads.map TraceRead.traceId →
      (reads.foldl (Turn.take groups) turn).subjects.get? traceId = turn.subjects.get? traceId := by
  induction reads generalizing turn with
  | nil => exact ⟨fun _ none => absurd none List.not_mem_nil, fun _ _ => rfl⟩
  | cons read rest ih =>
      rw [List.map_cons, List.nodup_cons] at distinct
      obtain ⟨within, outside⟩ := @ih distinct.2 (turn.take groups read)
      have step : ∀ traceId, (turn.take groups read).subjects.get? traceId =
          if traceId = read.traceId then some read.subject else turn.subjects.get? traceId :=
        fun traceId => Dict.get?_set ..
      constructor
      · intro other inside
        rcases List.mem_cons.mp inside with rfl | later
        · rw [List.foldl_cons, outside _ distinct.1, step, if_pos rfl]
        · exact within other later
      · intro traceId absent
        rw [List.map_cons, List.mem_cons, not_or] at absent
        rw [List.foldl_cons, outside traceId absent.2, step, if_neg absent.1]

end

/-- The archive expects this identifier in the trace. -/
theorem mem_byTrace {expected : SpanMap} {traceId key : String} : key ∈ (byTrace expected).members traceId ↔
    ∃ entry, expected.entries.get? key = some entry ∧ entry.span.traceId = traceId := by
  rw [byTrace, Dict.mem_members_group, List.mem_map]
  constructor
  · rintro ⟨⟨own, entry⟩, inside, same⟩
    obtain ⟨named, rfl⟩ := Prod.mk.injEq .. |>.mp same
    exact ⟨entry, (Dict.get?_eq_some_iff ..).mpr inside, named⟩
  · rintro ⟨entry, found, rfl⟩
    exact ⟨(key, entry), (Dict.get?_eq_some_iff ..).mp found, rfl⟩

/-- The traces of the archive in the order in which they are read. -/
def traceIds (expected : SpanMap) : List String := ((byTrace expected).sortBy id).keys

theorem mem_traceIds {expected : SpanMap} {traceId : String} : traceId ∈ traceIds expected ↔
    ∃ key entry, expected.entries.get? key = some entry ∧ entry.span.traceId = traceId := by
  have same : (traceIds expected).Perm (byTrace expected).keys := (List.perm_insertionSort ..).map Prod.fst
  rw [same.mem_iff, byTrace, Dict.mem_keys_group, List.map_map, List.mem_map]
  constructor
  · rintro ⟨⟨key, entry⟩, inside, named⟩
    exact ⟨key, entry, (Dict.get?_eq_some_iff ..).mpr inside, named⟩
  · rintro ⟨key, entry, found, named⟩
    exact ⟨(key, entry), (Dict.get?_eq_some_iff ..).mp found, named⟩

/-- The Subject of the span, when it names one, is the session of its trace. -/
def carries (span : Span) (subject : String) : Bool :=
  match (span.attributes.get? "cord.subject.id").getD .null with
  | .null => true
  | value => (Json.str subject).pyEq value

theorem sameSubject_eq {span : Span} {subjects : Dict String String} {subject : String}
    (told : subjects.get? span.traceId = some subject) : sameSubject span subjects = carries span subject := by
  unfold sameSubject carries
  rw [told]
  rfl

/-- The traces have the spans of the archive and no others, field by field. -/
structure Agreement (expected : SpanMap) (reads : List TraceRead) : Prop where
  known : ∀ read ∈ reads, ∀ key ∈ read.spans.entries.keys,
    ∃ entry, expected.entries.get? key = some entry ∧ entry.span.traceId = read.traceId
  fields : ∀ read ∈ reads, ∀ key entry, expected.entries.get? key = some entry → entry.span.traceId = read.traceId →
    ∃ other, read.spans.entries.get? key = some other ∧ (projection entry.span).pyEq (projection other.span) = true ∧
      carries entry.span read.subject = true

/-- This is the turn after these traces. -/
def gather (expected : SpanMap) (reads : List TraceRead) : Turn :=
  reads.foldl (Turn.take (byTrace expected)) Turn.start

section
variable {expected : SpanMap} {reads : List TraceRead}

theorem exact_iff {read : TraceRead} : read.exact (byTrace expected) = true ↔
    (∀ key entry, expected.entries.get? key = some entry → entry.span.traceId = read.traceId →
      key ∈ read.spans.entries.keys) ∧
    ∀ key ∈ read.spans.entries.keys, ∃ entry, expected.entries.get? key = some entry ∧
      entry.span.traceId = read.traceId := by
  simp only [TraceRead.exact, TraceRead.complete, Bool.and_eq_true, List.all_eq_true, List.contains_iff_mem, mem_byTrace]
  apply and_congr_left'
  constructor
  · intro each key entry found named
    obtain ⟨other, held⟩ := Option.isSome_iff_exists.mp (each key ⟨entry, found, named⟩)
    exact Dict.mem_keys_of_get? held
  · rintro each key ⟨entry, found, named⟩
    rw [Option.isSome_iff_ne_none, ne_eq, Dict.get?_eq_none_iff, not_not]
    exact each key entry found named

/-- When the identifiers agree, each trace keeps its own observations. -/
theorem gather_actual (ids : reads.map TraceRead.traceId = traceIds expected)
    (known : ∀ read ∈ reads, ∀ key ∈ read.spans.entries.keys,
      ∃ entry, expected.entries.get? key = some entry ∧ entry.span.traceId = read.traceId)
    {read : TraceRead} (inside : read ∈ reads) {key : String} {entry other : Entry}
    (found : expected.entries.get? key = some entry) (named : entry.span.traceId = read.traceId)
    (held : (gather expected reads).actual.entries.get? key = some other) :
    read.spans.entries.get? key = some other := by
  have distinct : (reads.map TraceRead.traceId).Nodup := by
    rw [ids]
    exact Dict.distinct _
  rcases take_actual held with none | ⟨source, listed, own⟩
  · cases none
  · obtain ⟨same, expects, placed⟩ := known source listed key (Dict.mem_keys_of_get? own)
    obtain rfl := Option.some.inj (found.symm.trans expects)
    have one : source = read := List.inj_on_of_nodup_map distinct listed inside (placed.symm.trans named)
    rw [← one]
    exact own

/-- The match of the fields is the agreement of the traces. -/
theorem agrees_iff (ids : reads.map TraceRead.traceId = traceIds expected) :
    agrees expected (gather expected reads) = true ↔ Agreement expected reads := by
  have distinct : (reads.map TraceRead.traceId).Nodup := by
    rw [ids]
    exact Dict.distinct _
  have subjects := (@take_subjects (byTrace expected) reads distinct Turn.start).1
  have exact : (gather expected reads).sameIds = true ↔ ∀ read ∈ reads, read.exact (byTrace expected) = true := by
    rw [gather, take_sameIds, Turn.start, Bool.true_and, List.all_eq_true]
  rw [agrees, Bool.and_eq_true, exact, List.all_eq_true]
  constructor
  · rintro ⟨same, each⟩
    have known := fun read inside => (exact_iff.mp (same read inside)).2
    refine ⟨known, fun read inside key entry found named => ?_⟩
    obtain ⟨other, held, equal⟩ := (Option.any_eq_true ..).mp (each (key, entry) ((Dict.get?_eq_some_iff ..).mp found))
    obtain ⟨fields, subject⟩ := Bool.and_eq_true_iff.mp equal
    have told : (gather expected reads).subjects.get? entry.span.traceId = some read.subject := by
      rw [named]
      exact subjects read inside
    exact ⟨other, gather_actual ids known inside found named held, fields, (sameSubject_eq told).symm.trans subject⟩
  · intro agreement
    constructor
    · intro read inside
      refine exact_iff.mpr ⟨fun key entry found named => ?_, agreement.known read inside⟩
      obtain ⟨other, held, _⟩ := agreement.fields read inside key entry found named
      exact Dict.mem_keys_of_get? held
    · rintro ⟨key, entry⟩ member
      have found := (Dict.get?_eq_some_iff expected.entries key entry).mpr member
      have listed : entry.span.traceId ∈ reads.map TraceRead.traceId := by
        rw [ids]
        exact mem_traceIds.mpr ⟨key, entry, found, rfl⟩
      obtain ⟨read, inside, named⟩ := List.mem_map.mp listed
      obtain ⟨other, held, equal, subject⟩ := agreement.fields read inside key entry found named.symm
      have covered : key ∈ (gather expected reads).actual.entries.keys :=
        take_covers (.inr ⟨read, inside, Dict.mem_keys_of_get? held⟩)
      obtain ⟨again, here⟩ : ∃ again, (gather expected reads).actual.entries.get? key = some again := by
        rw [← Option.isSome_iff_exists, Option.isSome_iff_ne_none, ne_eq, Dict.get?_eq_none_iff, not_not]
        exact covered
      have own := gather_actual ids agreement.known inside found named.symm here
      obtain rfl := Option.some.inj (own.symm.trans held)
      have told : (gather expected reads).subjects.get? entry.span.traceId = some read.subject := by
        rw [← named]
        exact subjects read inside
      rw [here, Option.any_some, Bool.and_eq_true]
      exact ⟨equal, (sameSubject_eq told).trans subject⟩

end

end Cordboard.Archive.Public
