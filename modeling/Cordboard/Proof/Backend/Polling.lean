import Cordboard.Construction.Polling
import Cordboard.Data.Outcome
import Cordboard.Proof.View.LiveWatch

namespace Cordboard.AegraBackend
open Data Effects AegraClient LiveReconciliation

/-- The answer has the fields that both loops read, and its status is a text. -/
def Readable (run : Json) : Prop := ∃ info raw, describe run = .ok info ∧ info.status = .str raw

/-- The two loops settle alike. A success needs the final state of the Thread. -/
inductive Agrees (runId threadId : String) (state : Option Json) :
    Except Exc ClientResult → Except Exc (RuntimeStatus × ClientWaitOutcome) → Prop
  | success {values : Json} (read : finalValues state = .ok values) :
      Agrees runId threadId state (.ok (ClientResult.success runId threadId values)) (.ok (.succeeded, .completed))
  | unread {exc : Exc} (unread : finalValues state = .error exc) :
      Agrees runId threadId state (.error exc) (.ok (.succeeded, .completed))
  | interrupted : Agrees runId threadId state (.ok (ClientResult.waiting runId threadId "interrupted"))
      (.ok (.interrupted, .completed))
  | deadline {status : RuntimeStatus} (waits : status = .queued ∨ status = .running) :
      Agrees runId threadId state (.ok (ClientResult.waiting runId threadId "deadline")) (.ok (status, .deadlineReached))
  | failed {exc : Exc} {status : RuntimeStatus} (raised : exc.isRuntimeError = true)
      (failed : status = .failed ∨ status = .cancelled ∨ status = .unknown) :
      Agrees runId threadId state (.error exc) (.ok (status, .completed))
  | transport {exc : Exc} (raised : exc.isRuntimeError = true) :
      Agrees runId threadId state (.error exc) (.ok (.unknown, .transportError))

/-- Both loops still poll, or both have settled after the same number of polls. -/
abbrev InStep (runId threadId : String) (state : Option Json) :
    Option (Polled ClientResult) → Option (Polled (RuntimeStatus × ClientWaitOutcome)) → Prop :=
  Option.Rel fun one two => one.polls = two.polls ∧ Agrees runId threadId state one.outcome two.outcome

section
variable {runId threadId : String} {state : Option Json} {deadline : Time} {run : Json} {poll : Poll}

theorem InStep.more {one : Option (Polled ClientResult)} {two : Option (Polled (RuntimeStatus × ClientWaitOutcome))}
    (agree : InStep runId threadId state one two) : InStep runId threadId state (one.map Polled.more)
      (two.map Polled.more) := by
  cases agree with
  | none => exact .none
  | some settled => exact .some ⟨congrArg Nat.succ settled.1, settled.2⟩

/-- The description keeps the status of the answer. -/
theorem index_of_describe {info : Description} (described : describe run = .ok info) :
    run.index "status" = .ok info.status := by
  obtain ⟨stored, _, described⟩ := bind_ok.mp described
  obtain ⟨configurable, _, described⟩ := bind_ok.mp described
  obtain ⟨subject, _, described⟩ := bind_ok.mp described
  obtain ⟨assistantId, _, described⟩ := bind_ok.mp described
  obtain ⟨status, found, described⟩ := bind_ok.mp described
  obtain rfl := Except.ok.inj described
  exact found

/-- A text that is no waiting status gives the status of the table. -/
theorem runtimeStatus_text (raw : String) : runtimeStatus (.str raw) = .ok (rawStatus raw) := rfl

theorem isWaiting_text {raw : String} : isWaiting (.str raw) = true ↔ raw = "pending" ∨ raw = "running" := by
  rw [isWaiting, Bool.or_eq_true, pyEq_text, pyEq_text, Json.str.injEq, Json.str.injEq]

theorem rawStatus_waiting {raw : String} (waits : raw = "pending" ∨ raw = "running") :
    rawStatus raw = .queued ∨ rawStatus raw = .running := by
  rcases waits with rfl | rfl
  · exact .inl rfl
  · exact .inr rfl

/-- A text outside the four known outcomes of the loop is a failure, a cancellation, or unknown. -/
theorem rawStatus_failed {raw : String} (other : ¬ (raw = "pending" ∨ raw = "running")) (success : raw ≠ "success")
    (interrupted : raw ≠ "interrupted") :
    rawStatus raw = .failed ∨ rawStatus raw = .cancelled ∨ rawStatus raw = .unknown := by
  rw [not_or] at other
  unfold rawStatus
  rw [if_neg other.1, if_neg other.2, if_neg interrupted, if_neg success]
  split
  · exact .inl rfl
  split
  · exact .inr (.inl rfl)
  · exact .inr (.inr rfl)

/-- The two loops agree on every trace of their polls. -/
theorem untils_agree (thread : blank threadId = false) (named : blank runId = false) {trace : List Poll}
    (readable : ∀ poll ∈ trace, ∀ run, poll.answer = some run → Readable run) :
    InStep runId threadId state (pollUntil runId threadId state deadline trace)
      (waitUntil threadId runId deadline trace) := by
  induction trace with
  | nil => exact .none
  | cons poll rest ih =>
      obtain ⟨own, others⟩ := List.forall_mem_cons.mp readable
      unfold pollUntil waitUntil
      have described : describeRun poll.answer threadId runId = requested poll.answer >>= describe := by
        unfold describeRun
        rw [if_neg (ne_true_of_eq_false thread), if_neg (ne_true_of_eq_false named)]
      rw [described]
      cases answer : poll.answer with
      | none => exact .some ⟨rfl, .transport rfl⟩
      | some run =>
          obtain ⟨info, raw, read, text⟩ := own run answer
          have polled : polledStatus (some run) = .ok (.str raw) := by
            rw [← text]
            exact index_of_describe read
          have waited : (requested (some run) >>= describe) = .ok info := read
          rw [polled, waited]
          dsimp only
          rw [text, runtimeStatus_text]
          by_cases success : raw = "success"
          · subst success
            rw [if_pos (show (Json.str "success").pyEq (.str "success") = true from rfl), if_neg (by decide)]
            cases values : finalValues state with
            | ok values => exact .some ⟨rfl, .success values⟩
            | error exc => exact .some ⟨rfl, .unread values⟩
          · rw [if_neg (by rw [pyEq_text, Json.str.injEq]; exact success)]
            by_cases interrupted : raw = "interrupted"
            · subst interrupted
              rw [if_pos (show (Json.str "interrupted").pyEq (.str "interrupted") = true from rfl), if_neg (by decide)]
              exact .some ⟨rfl, .interrupted⟩
            · rw [if_neg (by rw [pyEq_text, Json.str.injEq]; exact interrupted)]
              by_cases waits : raw = "pending" ∨ raw = "running"
              · rw [isWaiting_text.mpr waits, if_neg (by decide), if_pos rfl]
                by_cases late : deadline ≤ poll.now
                · rw [if_pos late, if_pos late]
                  exact .some ⟨rfl, .deadline (rawStatus_waiting waits)⟩
                · rw [if_neg late, if_neg late]
                  exact (ih others).more
              · have failed : isWaiting (.str raw) = false := by
                  rw [← Bool.not_eq_true, isWaiting_text]
                  exact waits
                rw [failed, if_pos (show (!false) = true from rfl), if_neg Bool.false_ne_true]
                exact .some ⟨rfl, .failed rfl (rawStatus_failed waits success interrupted)⟩

end

/-- Both clients poll equally often and settle alike on every trace of answers and clock readings. -/
theorem loops_agree (runId threadId : String) (timeout start : Time) (state : Option Json) (trace : List Poll)
    (thread : blank threadId = false) (named : blank runId = false)
    (readable : ∀ poll ∈ trace, ∀ run, poll.answer = some run → Readable run) :
    InStep runId threadId state (pollUntilSettled runId threadId timeout start state trace)
      (waitForRunOn threadId runId timeout start trace) := untils_agree thread named readable

/-- The answer of a service that carries both fields and the given status. -/
def answerOf (raw : String) : Json := .obj [("assistant_id", .str "a"), ("status", .str raw)]

/-- A Run that is pending at the first poll and succeeds at the second one. -/
theorem loops_agree_success : InStep "r" "t" (some (.obj [("values", .null)]))
    (pollUntilSettled "r" "t" 1 0 (some (.obj [("values", .null)]))
      [⟨some (answerOf "pending"), 0⟩, ⟨some (answerOf "success"), 2⟩])
    (waitForRunOn "t" "r" 1 0 [⟨some (answerOf "pending"), 0⟩, ⟨some (answerOf "success"), 2⟩]) :=
  loops_agree "r" "t" 1 0 _ _ (by decide) (by decide) (by
    intro poll member run answer
    rw [List.mem_cons, List.mem_singleton] at member
    rcases member with rfl | rfl
    · obtain rfl := Option.some.inj answer
      exact ⟨⟨.str "a", .str "pending", .null⟩, "pending", rfl, rfl⟩
    · obtain rfl := Option.some.inj answer
      exact ⟨⟨.str "a", .str "success", .null⟩, "success", rfl, rfl⟩)

end Cordboard.AegraBackend
