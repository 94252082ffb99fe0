import Cordboard.Proof.Archive.Comparison
import Cordboard.Proof.Archive.Termination
import Mathlib.Algebra.Order.Ring.Rat
import Mathlib.Tactic.Linarith

namespace Cordboard.Archive.Public
open Data Effects Fallible

/-- The deadline counts from the first reading of the clock. A request or a sleep uses up the last reading. -/
structure Watch where
  deadline : Option Time
  now : Option Time

/-- This takes some time, and it ends by the deadline when it starts at the last reading. -/
def Watch.leaves (watch : Watch) (seconds : Time) : Prop :=
  0 < seconds ∧ ∃ now deadline, watch.now = some now ∧ watch.deadline = some deadline ∧ now + seconds ≤ deadline

/-- Each request and each sleep has to leave the deadline alone. -/
def watched (wait poll : Time) : Machine signature Watch where
  guard watch op := match op with
    | .monotonic => True
    | .get _ _ timeout => timeout ≤ 5 ∧ watch.leaves timeout
    | .sleep seconds => seconds ≤ poll ∧ watch.leaves seconds
  step watch op answer later := match op, answer with
    | .monotonic, now => later = ⟨some (watch.deadline.getD (now + wait)), some now⟩
    | .get .., _ => later = ⟨watch.deadline, none⟩
    | .sleep _, _ => later = ⟨watch.deadline, none⟩

section
variable {wait poll deadline : Time}

/-- The deadline has been set. -/
def Dated (deadline : Time) (watch : Watch) : Prop := watch.deadline = some deadline

theorem monotonic_watched {post : List signature.Event → Except Stop Time → Watch → Prop} {watch : Watch}
    (later : ∀ now, post [⟨.monotonic, now⟩] (.ok now) ⟨some (watch.deadline.getD (now + wait)), some now⟩) :
    monotonic.wp (watched wait poll) post watch := by
  refine ⟨trivial, ?_⟩
  rintro now _ rfl
  exact later now

theorem get_watched (path : String) (params : List (String × Json)) :
    Keeps (watched wait poll) (Dated deadline) (get path params deadline) := by
  intro watch held
  rw [get, wp_bind]
  apply monotonic_watched
  intro now
  rw [held, Option.getD_some, after_ok]
  split
  · exact rfl
  · rename_i left
    rw [wp_bind]
    refine ⟨⟨min_le_left _ _, lt_min (by decide) (not_le.mp left), now, deadline, rfl, rfl, ?_⟩, ?_⟩
    · linarith [min_le_right 5 (deadline - now)]
    · rintro reply _ rfl
      exact (wp_ofExcept _ _ _).mpr rfl

variable (referenceNs : String → Instant)

theorem readPages_watched (traceId : String) (fuel number : Nat) (found : SpanMap) :
    Keeps (watched wait poll) (Dated deadline) (readPages referenceNs traceId deadline fuel number found) := by
  induction fuel generalizing number found with
  | zero => exact keeps_raise _
  | succ fuel ih =>
      rw [readPages]
      apply (get_watched _ _).bind
      intro result
      apply (keeps_ofExcept _).bind
      intro page
      apply (keeps_ofExcept _).bind
      intro next
      split
      · split
        · exact keeps_raise _
        · exact keeps_pure next
      · split
        · exact keeps_raise _
        · exact ih (number + 1) next

theorem trace_watched (traceId : String) (fuel : Nat) :
    Keeps (watched wait poll) (Dated deadline) (trace referenceNs fuel traceId deadline) := by
  rw [trace]
  apply (readPages_watched referenceNs traceId fuel 1 _).bind
  intro found
  split
  · exact keeps_raise _
  · apply (get_watched _ _).bind
    intro value
    apply (keeps_ofExcept _).bind
    intro subject
    exact keeps_pure _

theorem readTraces_watched (groups : Dict String (List String)) (fuel : Nat) (ids : List String) (start : Turn) :
    Keeps (watched wait poll) (Dated deadline) (readTraces referenceNs groups fuel deadline ids start) := by
  induction ids generalizing start with
  | nil => exact keeps_pure start
  | cons traceId rest ih =>
      rw [readTraces]
      apply (trace_watched referenceNs traceId fuel).bind
      rintro ⟨spans, subject⟩
      exact ih _

section
variable (frozen : Frozen) (reference top : Int) (pages : Nat)

theorem turn_watched (observed : Nat) : Keeps (watched wait poll) (Dated deadline)
    (turn referenceNs frozen reference top ⟨deadline, poll, pages⟩ observed) := by
  rw [turn]
  apply (readTraces_watched referenceNs _ pages _ Turn.start).attempt.bind
  intro outcome
  cases outcome with
  | error reason =>
      cases reason with
      | pending => exact keeps_pure _
      | escape exception => exact keeps_raise _
      | read status => cases status <;> exact keeps_pure _
  | ok reading =>
      simp only
      split
      · split
        · exact keeps_pure _
        · exact keeps_raise _
      · exact keeps_pure _

theorem pollLoop_watched (positive : 0 < poll) (fuel : Nat) (lastStatus : CompareStatus) (observed : Nat) :
    Keeps (watched wait poll) (Dated deadline)
      (pollLoop referenceNs frozen reference top ⟨deadline, poll, pages⟩ fuel lastStatus observed) := by
  induction fuel generalizing lastStatus observed with
  | zero => exact keeps_raise _
  | succ fuel ih =>
      intro watch held
      rw [pollLoop, wp_bind]
      apply monotonic_watched
      intro now
      rw [held, Option.getD_some, after_ok]
      split
      · apply wp_seq (turn_watched referenceNs frozen reference top pages observed ⟨some deadline, some now⟩ rfl)
        · intro before turned reached kept
          cases turned with
          | done report => exact kept
          | again status later =>
              rw [wp_bind]
              apply monotonic_watched
              intro again
              rw [kept, Option.getD_some, after_ok]
              simp only
              split
              · rename_i left
                rw [wp_bind]
                refine ⟨⟨min_le_left _ _, lt_min positive left, again, deadline, rfl, rfl, ?_⟩, ?_⟩
                · linarith [min_le_right poll (deadline - again)]
                · rintro answer _ rfl
                  exact ih status later ⟨some deadline, none⟩ rfl
              · exact ih status later ⟨some deadline, some again⟩ rfl
        · intro before exception reached kept
          exact kept
      · exact rfl

end

/-- Whatever the clock and the service answer, each request and each sleep of a comparison follows a reading of the
clock, and the time that it may take ends by the deadline. No request takes more than five seconds. -/
theorem deadline_kept (archive : Checked SpanMap) (reference top : Int) (pages turns : Nat) :
    (compare referenceNs archive reference top wait poll pages turns).wp (watched wait poll) (fun _ _ _ => True)
      ⟨none, none⟩ := by
  unfold compare
  cases done : freeze archive reference top wait poll with
  | error failure => exact trivial
  | ok frozen =>
      have positive : 0 < poll := by
        unfold freeze at done
        split at done
        · cases done
        · rename_i checked
          exact not_le.mp (not_or.mp checked).2
      rw [wp_bind]
      apply monotonic_watched
      intro now
      exact wp_mono (pollLoop_watched referenceNs frozen reference top pages positive turns .timeout 0 _ rfl)
        fun _ _ _ _ => trivial

end

end Cordboard.Archive.Public
