import Cordboard.Proof.Archive.Comparison
import Cordboard.Proof.Archive.Termination
import Mathlib.Algebra.Order.Ring.Rat
import Mathlib.Tactic.Linarith

namespace Cordboard.Archive.Public
open Data Effects Fallible

/-- The state is the present time. Time does not run backwards, and each request takes at least this long. -/
def ticking (least : Time) : Machine signature Time where
  guard _ _ := True
  step clock op answer later := match op, answer with
    | .monotonic, now => clock ≤ now ∧ later = now
    | .get .., _ => clock + least ≤ later
    | .sleep _, _ => clock ≤ later

theorem ticking_free {least : Time} (clock : Time) (op : Operation) : (ticking least).guard clock op := trivial

/-- The only other exception of a reading is a native time out of range. -/
def Calm : Stop → Prop
  | .escape exception => exception = .overflow
  | _ => True

/-- An outcome is a value or a calm stop. -/
def Orderly {A : Type} (outcome : Except Stop A) : Prop := ∀ reason, outcome = .error reason → Calm reason

section
variable {A B : Type}

theorem orderly_ok (value : A) : Orderly (.ok value : Except Stop A) := by
  intro reason same
  cases same

theorem orderly_error {reason : Stop} (calm : Calm reason) : Orderly (.error reason : Except Stop A) := by
  intro other same
  obtain rfl := Except.error.inj same
  exact calm

theorem Orderly.bind {first : Except Stop A} {rest : A → Except Stop B} (orderly : Orderly first)
    (later : ∀ value, Orderly (rest value)) : Orderly (first >>= rest) := by
  cases first with
  | error reason => exact orderly_error (orderly reason rfl)
  | ok value => exact later value

theorem orderly_caught (checked : Checked A) : Orderly (caught checked) := by
  cases checked with
  | ok value => exact orderly_ok value
  | error failure => exact orderly_error trivial

theorem orderly_answerOf (path : String) (reply : Option HttpResponse) : Orderly (answerOf path reply) := by
  cases reply with
  | none => exact orderly_error trivial
  | some response =>
      simp only [answerOf]
      split
      · exact orderly_error trivial
      split
      · exact orderly_error trivial
      split
      · exact orderly_error trivial
      cases response.body with
      | none => exact orderly_error trivial
      | some value => exact orderly_ok value

theorem orderly_foldlM {step : B → A → Except Stop B} (each : ∀ state item, Orderly (step state item))
    (items : List A) (start : B) : Orderly (items.foldlM step start) := by
  induction items generalizing start with
  | nil => exact orderly_ok start
  | cons item rest ih =>
      rw [List.foldlM_cons]
      exact (each start item).bind ih

end

section
variable (referenceNs : String → Instant)

theorem orderly_matchNative (native : Json) (precise : Nat) : Orderly (matchNative referenceNs native precise) := by
  cases native with
  | str text =>
      rw [matchNative]
      cases referenceNs text with
      | instant ns =>
          simp only
          split
          · exact orderly_ok ()
          · exact orderly_error trivial
      | refused => exact orderly_error trivial
      | overflow => exact orderly_error rfl
  | _ => exact orderly_error trivial

theorem orderly_observation (row : Json) : Orderly (observation referenceNs row) := by
  unfold observation
  apply (orderly_caught _).bind
  intro metadata
  apply (orderly_caught _).bind
  intro attrs
  split
  · split
    · exact orderly_error trivial
    · apply (orderly_caught _).bind
      intro start
      apply (orderly_caught _).bind
      intro finish
      apply (orderly_caught _).bind
      intro _
      apply (orderly_caught _).bind
      intro startTime
      apply (orderly_matchNative referenceNs _ _).bind
      intro _
      apply (orderly_matchNative referenceNs _ _).bind
      intro _
      apply (orderly_caught _).bind
      intro sid
      apply (orderly_caught _).bind
      intro traceId
      apply (orderly_caught _).bind
      intro above
      apply (orderly_caught _).bind
      intro name
      exact orderly_ok _
  · exact orderly_error trivial

theorem orderly_collect (traceId : String) (found : SpanMap) (row : Json) :
    Orderly (collect referenceNs traceId found row) := by
  apply (orderly_observation referenceNs row).bind
  intro new
  split
  · exact orderly_error trivial
  split
  · exact orderly_error trivial
  · exact orderly_ok _

end

section
variable {least deadline : Time}

theorem monotonic_ticking {post : List signature.Event → Except Stop Time → Time → Prop} {clock : Time}
    (later : ∀ now, clock ≤ now → post [⟨.monotonic, now⟩] (.ok now) now) :
    monotonic.wp (ticking least) post clock := by
  refine ⟨trivial, ?_⟩
  rintro now after ⟨forward, rfl⟩
  exact later after forward

theorem request_ticking {path : String} {params : List (String × Json)} {timeout : Time}
    {post : List signature.Event → Except Stop (Option HttpResponse) → Time → Prop} {clock : Time}
    (later : ∀ reply after, clock + least ≤ after → post [⟨.get path params timeout, reply⟩] (.ok reply) after) :
    (request path params timeout).wp (ticking least) post clock :=
  ⟨trivial, later⟩

theorem sleep_ticking {seconds : Time} {post : List signature.Event → Except Stop Unit → Time → Prop} {clock : Time}
    (later : ∀ after, clock ≤ after → post [⟨.sleep seconds, ()⟩] (.ok ()) after) :
    (sleep seconds).wp (ticking least) post clock :=
  ⟨trivial, fun _ after forward => later after forward⟩

/-- A predicate that later times keep is kept by each program. -/
theorem keeps_later {A : Type} (positive : 0 < least) {holds : Time → Prop}
    (later : ∀ one two, one ≤ two → holds one → holds two) (program : Reading A) :
    Keeps (ticking least) holds program := by
  apply keeps_of_uses
  apply Program.uses_of_all
  rintro (_ | ⟨path, params, timeout⟩ | seconds) clock held
  · refine ⟨trivial, ?_⟩
    rintro now after ⟨forward, rfl⟩
    exact later clock after forward held
  · refine ⟨trivial, fun reply after took => later clock after ?_ held⟩
    linarith [show clock + least ≤ after from took]
  · exact ⟨trivial, fun answer after forward => later clock after forward held⟩

/-- A request was made, or the deadline has passed. -/
def Spent (least deadline clock later : Time) : Prop := clock + least ≤ later ∨ deadline ≤ later

theorem Spent.later {clock one two : Time} (order : one ≤ two) (spent : Spent least deadline clock one) :
    Spent least deadline clock two :=
  spent.imp (le_trans · order) (le_trans · order)

section
variable (positive : 0 < least) (path : String) (params : List (String × Json)) (clock : Time)

theorem get_calm : Raises (ticking least) Calm (get path params deadline) clock := by
  unfold Raises
  rw [get, wp_bind]
  apply monotonic_ticking
  intro now forward
  rw [after_ok]
  split
  · exact orderly_error trivial
  · rw [wp_bind]
    apply request_ticking
    intro reply after took
    exact (wp_ofExcept _ _ _).mpr (orderly_answerOf path reply)

/-- A value of `get` takes a request before the deadline. -/
theorem get_takes : (get path params deadline).wp (ticking least) (fun _ outcome later =>
    ∀ value, outcome = .ok value → clock < deadline ∧ clock + least ≤ later) clock := by
  rw [get, wp_bind]
  apply monotonic_ticking
  intro now forward
  rw [after_ok]
  split
  · intro value same
    cases same
  · rw [wp_bind]
    apply request_ticking
    intro reply after took
    refine (wp_ofExcept _ _ _).mpr fun _ _ => ⟨?_, ?_⟩ <;> linarith

theorem get_spent : (get path params deadline).wp (ticking least)
    (fun _ _ later => Spent least deadline clock later) clock := by
  rw [get, wp_bind]
  apply monotonic_ticking
  intro now forward
  rw [after_ok]
  split
  · exact .inr (by linarith)
  · rw [wp_bind]
    apply request_ticking
    intro reply after took
    exact (wp_ofExcept _ _ _).mpr (.inl (by linarith))

end

/-- The loop over the pages is over when the time for its pages is up. -/
theorem readPages_calm (referenceNs : String → Instant) (traceId : String) (fuel number : Nat) (found : SpanMap) (clock : Time)
    (late : deadline ≤ clock + fuel * least) :
    Raises (ticking least) Calm (readPages referenceNs traceId deadline (fuel + 1) number found) clock := by
  induction fuel generalizing number found clock with
  | zero =>
      rw [Nat.cast_zero, zero_mul, add_zero] at late
      rw [readPages]
      apply Raises.seq (get_calm _ _ clock) (get_takes _ _ clock)
      intro result after took
      exact absurd late (not_le.mpr took.1)
  | succ fuel ih =>
      rw [readPages]
      apply Raises.seq (get_calm _ _ clock) (get_takes _ _ clock)
      intro result after took
      apply raises_stored (orderly_caught _)
      intro page _
      apply raises_stored (orderly_foldlM (orderly_collect referenceNs traceId) page.rows found)
      intro next _
      split
      · split
        · exact raises_raise trivial
        · exact raises_pure next
      · split
        · exact raises_raise trivial
        · apply ih
          push_cast at late
          linarith [took.2]

section
variable (positive : 0 < least)
include positive

/-- The time that the first program spends stays spent. -/
theorem spent_bind {A B : Type} {program : Reading A} {rest : A → Reading B} {clock : Time}
    (first : program.wp (ticking least) (fun _ _ later => Spent least deadline clock later) clock) :
    (program >>= rest).wp (ticking least) (fun _ _ later => Spent least deadline clock later) clock := by
  apply wp_seq first
  · intro before value reached spent
    exact keeps_later positive (fun _ _ order => Spent.later order) (rest value) reached spent
  · intro before exception reached spent
    exact spent

/-- A program ends no earlier than it starts. -/
theorem forward {A : Type} (program : Reading A) (clock : Time) :
    program.wp (ticking least) (fun _ _ later => clock ≤ later) clock :=
  keeps_later positive (fun _ _ order held => le_trans held order) program clock le_rfl

variable (referenceNs : String → Instant)

theorem readPages_spent (traceId : String) (fuel number : Nat) (found : SpanMap) (clock : Time) :
    (readPages referenceNs traceId deadline (fuel + 1) number found).wp (ticking least)
      (fun _ _ later => Spent least deadline clock later) clock := by
  rw [readPages]
  exact spent_bind positive (get_spent _ _ clock)

theorem trace_spent (traceId : String) (fuel : Nat) (clock : Time) :
    (trace referenceNs (fuel + 1) traceId deadline).wp (ticking least)
      (fun _ _ later => Spent least deadline clock later) clock := by
  rw [trace]
  exact spent_bind positive (readPages_spent positive referenceNs traceId fuel 1 _ clock)

theorem trace_calm (traceId : String) (fuel : Nat) (clock : Time) (late : deadline ≤ clock + fuel * least) :
    Raises (ticking least) Calm (trace referenceNs (fuel + 1) traceId deadline) clock := by
  rw [trace]
  apply Raises.seq (readPages_calm referenceNs traceId fuel 1 _ clock late) (K := fun _ _ => True)
  · exact wp_mono (forward positive _ clock) fun _ _ _ _ _ _ => trivial
  · intro found after _
    split
    · exact raises_raise trivial
    · apply Raises.seq (get_calm _ _ after) (get_takes _ _ after)
      intro value later _
      apply raises_stored (orderly_caught _)
      intro subject _
      exact raises_pure _

theorem readTraces_calm (groups : Dict String (List String)) (fuel : Nat) (ids : List String) (start : Turn)
    (clock : Time) (late : deadline ≤ clock + fuel * least) :
    Raises (ticking least) Calm (readTraces referenceNs groups (fuel + 1) deadline ids start) clock := by
  induction ids generalizing start clock with
  | nil => exact raises_pure start
  | cons traceId rest ih =>
      rw [readTraces]
      apply Raises.seq (trace_calm positive referenceNs traceId fuel clock late) (K := fun _ after => clock ≤ after)
      · exact wp_mono (forward positive _ clock) fun _ _ _ held _ _ => held
      · rintro ⟨spans, subject⟩ after held
        exact ih _ after (by linarith)

end

end

/-- Each span names its parent by a value that a lookup accepts. -/
def Refers (spans : SpanMap) : Prop :=
  ∀ key entry, spans.entries.get? key = some entry → hashable entry.span.parentRef = true

theorem Refers.tame {spans : SpanMap} (refers : Refers spans) (reference top : Int) :
    Tame (querySpans spans reference top) := by
  apply tame_querySpans
  rintro span kind ⟨entry, member, rfl⟩ _ _
  obtain ⟨key, found⟩ := mem_values.mp member
  exact refers key entry found

section
variable {referenceNs : String → Instant} {traceId : String}

theorem parentOf_refers {row above : Json} (read : parentOf row = .ok above) : hashable above = true := by
  cases row with
  | obj members =>
      simp only [parentOf] at read
      split at read
      · obtain ⟨sid, _, read⟩ := bind_ok.mp read
        obtain rfl := Except.ok.inj read
        rfl
      · obtain rfl := Except.ok.inj read
        rfl
  | _ => cases read

theorem observation_refers {row : Json} {new : NamedSpan} (decoded : observation referenceNs row = .ok new) :
    hashable new.span.parentRef = true := by
  unfold observation at decoded
  obtain ⟨metadata, _, decoded⟩ := bind_ok.mp decoded
  obtain ⟨attrs, _, decoded⟩ := bind_ok.mp decoded
  split at decoded
  · split at decoded
    · cases decoded
    · obtain ⟨start, _, decoded⟩ := bind_ok.mp decoded
      obtain ⟨finish, _, decoded⟩ := bind_ok.mp decoded
      obtain ⟨_, _, decoded⟩ := bind_ok.mp decoded
      obtain ⟨startTime, _, decoded⟩ := bind_ok.mp decoded
      obtain ⟨_, _, decoded⟩ := bind_ok.mp decoded
      obtain ⟨_, _, decoded⟩ := bind_ok.mp decoded
      obtain ⟨sid, _, decoded⟩ := bind_ok.mp decoded
      obtain ⟨own, _, decoded⟩ := bind_ok.mp decoded
      obtain ⟨above, parent, decoded⟩ := bind_ok.mp decoded
      obtain ⟨name, _, decoded⟩ := bind_ok.mp decoded
      obtain rfl := Except.ok.inj decoded
      exact parentOf_refers (caught_ok parent)
  · cases decoded

theorem collect_refers (found : SpanMap) (row : Json) (next : SpanMap) (refers : Refers found)
    (done : collect referenceNs traceId found row = .ok next) : Refers next := by
  obtain ⟨new, decoded, done⟩ := bind_ok.mp done
  split at done
  · cases done
  split at done
  · cases done
  obtain rfl := Except.ok.inj done
  intro key entry held
  have stored : (found.entries.set new.span.spanId ⟨new.span, publicLocation⟩).get? key = some entry := held
  rw [Dict.get?_set] at stored
  split at stored
  · obtain rfl := Option.some.inj stored
    exact observation_refers decoded
  · exact refers key entry stored

theorem Listed.refers {events : List signature.Event} {number : Nat} {found : SpanMap}
    (listed : Listed referenceNs events traceId number found) : Refers found := by
  induction listed with
  | start =>
      intro key entry held
      cases held
  | page _ _ _ rows ih => exact foldlM_keeps collect_refers ih rows

/-- The observations of collected traces are never refused with another exception than `ArchiveError`. -/
theorem observations_refer {expected : SpanMap} {events : List signature.Event} {reads : List TraceRead}
    (collected : ∀ read ∈ reads, Collected referenceNs events read.traceId read.spans) :
    Refers (gather expected reads).actual := by
  intro key entry held
  rcases take_actual held with none | ⟨read, inside, own⟩
  · cases none
  · obtain ⟨number, earlier, value, page, listed, _, _, rows, _⟩ := (collected read inside).listed
    exact foldlM_keeps collect_refers listed.refers rows key entry own

theorem settle_total {turn : Turn} (refers : Refers turn.actual) (expected : SpanMap) (allExpected : List Row)
    (reference top : Int) (failure : Failure) : settle expected allExpected reference top turn ≠ .error failure := by
  intro failed
  rw [settle] at failed
  cases read : querySpans turn.actual reference turn.actual.entries.keys.length with
  | ok rows =>
      rw [read] at failed
      cases failed
  | error other =>
      obtain ⟨reason, rfl⟩ := refers.tame reference _ other read
      rw [read] at failed
      cases failed

end

section
variable {least deadline : Time} (positive : 0 < least) (referenceNs : String → Instant) (frozen : Frozen)
  (reference top : Int) (poll : Time)
include positive

/-- A turn with a trace makes a request, or the deadline has passed. -/
theorem turn_spent (filled : traceIds frozen.expected ≠ []) (fuel observed : Nat) (clock : Time) :
    (turn referenceNs frozen reference top ⟨deadline, poll, fuel + 1⟩ observed).wp (ticking least)
      (fun _ _ later => Spent least deadline clock later) clock := by
  rw [turn]
  apply spent_bind positive
  rw [wp_attempt]
  show (readTraces referenceNs (byTrace frozen.expected) (fuel + 1) deadline (traceIds frozen.expected)
    Turn.start).wp (ticking least) (fun _ _ later => Spent least deadline clock later) clock
  cases named : traceIds frozen.expected with
  | nil => exact absurd named filled
  | cons traceId rest =>
      rw [readTraces]
      exact spent_bind positive (trace_spent positive referenceNs traceId fuel clock)

theorem turn_calm (fuel observed : Nat) (clock : Time) (late : deadline ≤ clock + fuel * least) :
    Raises (ticking least) (· = .escape .overflow)
      (turn referenceNs frozen reference top ⟨deadline, poll, fuel + 1⟩ observed) clock := by
  rw [turn]
  have told := (readTraces_tells referenceNs frozen.expected (fuel + 1) deadline (traceIds frozen.expected)
    Turn.start).on (@ticking_free least) clock
  have calm := readTraces_calm positive referenceNs (byTrace frozen.expected) fuel (traceIds frozen.expected)
    Turn.start clock late
  apply wp_caught (Program.wp_and told calm)
  rintro before outcome after ⟨known, orderly⟩
  cases outcome with
  | error reason =>
      cases reason with
      | pending => exact raises_pure _
      | escape exception =>
          obtain rfl := orderly _ rfl
          exact raises_raise rfl
      | read status => cases status <;> exact raises_pure _
  | ok reading =>
      obtain ⟨reads, _, collected, rfl⟩ := known reading rfl
      have refers := @observations_refer referenceNs frozen.expected before reads fun read inside => (collected read inside).1
      simp only
      split
      · split
        · exact raises_pure _
        · rename_i failure failed
          exact (settle_total refers _ _ _ _ _ failed).elim
      · exact raises_pure _

/-- The loop is over when the time for its turns is up. -/
theorem pollLoop_calm (filled : traceIds frozen.expected ≠ []) (pages fuel : Nat) (lastStatus : CompareStatus)
    (observed : Nat) (clock : Time) (paged : deadline ≤ clock + pages * least) (late : deadline ≤ clock + fuel * least) :
    Raises (ticking least) (· = .escape .overflow)
      (pollLoop referenceNs frozen reference top ⟨deadline, poll, pages + 1⟩ (fuel + 1) lastStatus observed) clock := by
  induction fuel generalizing lastStatus observed clock with
  | zero =>
      rw [Nat.cast_zero, zero_mul, add_zero] at late
      unfold Raises
      rw [pollLoop, wp_bind]
      apply monotonic_ticking
      intro now onward
      rw [after_ok, if_neg (not_lt.mpr (le_trans late onward))]
      exact raises_pure _
  | succ fuel ih =>
      unfold Raises
      rw [pollLoop, wp_bind]
      apply monotonic_ticking
      intro now onward
      rw [after_ok]
      split
      · have spent := @turn_spent least deadline positive referenceNs frozen reference top poll filled pages observed now
        have moved := forward positive (turn referenceNs frozen reference top ⟨deadline, poll, pages + 1⟩ observed) now
        apply Raises.seq (turn_calm positive referenceNs frozen reference top poll pages observed now (by linarith))
          (K := fun _ reached => Spent least deadline now reached ∧ now ≤ reached)
          (wp_mono (Program.wp_and spent moved) fun _ _ _ held _ _ => held)
        rintro turned reached ⟨spent, moved⟩
        have room : deadline ≤ reached + fuel * least := by
          push_cast at late
          have rest : 0 ≤ (fuel : Time) * least := mul_nonneg (Nat.cast_nonneg fuel) positive.le
          rcases spent with request | passed <;> linarith
        cases turned with
        | done report => exact raises_pure report
        | again status later =>
            unfold Raises
            rw [wp_bind]
            apply monotonic_ticking
            intro again ahead
            rw [after_ok]
            simp only
            split
            · rw [wp_bind]
              apply sleep_ticking
              intro woken slept
              exact ih status later woken (by linarith) (by linarith)
            · exact ih status later again (by linarith) (by linarith)
      · exact raises_pure _

end

theorem traceIds_filled {archive : Checked SpanMap} {reference top : Int} {wait poll : Time} {frozen : Frozen}
    (done : freeze archive reference top wait poll = .ok frozen) : traceIds frozen.expected ≠ [] := by
  have counted := freeze_counted done
  obtain ⟨positive, _⟩ := querySpans_ok.mp ⟨_, counted⟩
  have filled : frozen.expected.entries.items ≠ [] := by
    intro empty
    simp [Dict.keys, empty] at positive
  obtain ⟨⟨key, entry⟩, inside⟩ := List.exists_mem_of_ne_nil _ filled
  exact List.ne_nil_of_mem (mem_traceIds.mpr ⟨key, entry, (Dict.get?_eq_some_iff ..).mpr inside, rfl⟩)

end Cordboard.Archive.Public
