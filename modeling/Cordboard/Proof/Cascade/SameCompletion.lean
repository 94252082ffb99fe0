import Cordboard.Proof.Cascade.CascadeDepth
import Cordboard.Proof.Cascade.CascadeResume
import Cordboard.Proof.Response.Authority

namespace Cordboard.Provenance
open Data Effects
open PendingCompletions (Pair)
open RunContinuity (recordOf)

/-- The Thread of each entry is recorded. -/
def Anchored (board : Board) : Prop :=
  ∀ pair entry, (board .pending).find? pair = some entry → (recordOf (board .continuity) pair).isSome

/-- A board with recorded Threads starts the invariant. -/
theorem traced_anchored {board : Board} (anchored : Anchored board) : Traced False [] (board, start) := by
  refine ⟨by simp [start], ?_, by simp, fun strictly => strictly.elim, by simp [start]⟩
  intro pair entry present
  exact ⟨anchored pair entry present, by simp [start], fun strictly => strictly.elim⟩

/-- Each operation keeps the invariant when its resumes are consistent. -/
theorem perform_consistent (op : Operation) {board : Board} {phase : Phase} (traced : Traced False [] (board, phase)) :
    op.perform.wp (tracing Phase.consistent) (fun _ _ after => Traced False [] after) (board, prepare op phase) := by
  cases op with
  | route source id payload timeout now => exact perform_traced rfl traced
  | sweep timeout now => exact perform_traced rfl traced
  | submit submission boundary =>
      have prepared : Traced False [] (board, prepare (.submit submission boundary) phase) :=
        ⟨traced.placed, traced.entries, traced.items, traced.executions, traced.routed⟩
      exact (Program.wp_bind _ _ _ _).mpr (submitResponse_traced prepared ⟨rfl, rfl⟩ boundary)

/-- In a session whose resumes are consistent, the three paths route the completion that the Rule submitted. -/
theorem same_completion {ops : List Operation} {board : Board} (anchored : Anchored board) {final : Board × Phase}
    (session : (operations Phase.consistent).Session ops (board, start) final) :
    ∀ routed ∈ final.2.routed, routed.1 = routed.2.run := by
  have traced : Traced False [] final := by
    apply session.keeps _ (traced_anchored anchored)
    exact fun op _ state traced => perform_consistent op traced
  exact traced.routed

instance (origin : Origin) (info : RunInfo) (tracked : Bool) : Decidable (Reports origin info tracked) :=
  decidable_of_iff (info.assistantId.getD "" = origin.run.assistant ∧
      (info.subject = some origin.run.subject ∨ (ApprovalInbox.present info.subject = false ∧ tracked = true)) ∧
      (tracked = true ∨ origin.run.cascadeDepth = 0))
    ⟨fun reports => ⟨reports.1, reports.2.1, reports.2.2⟩, fun reports => ⟨reports.1, reports.2, reports.3⟩⟩

/-- A report is consistent when it is absent or agrees with the origin. -/
def Origin.agrees (origin : Origin) (tracked : Bool) : Option RunInfo → Bool
  | none => true
  | some info => decide (Reports origin info tracked)

instance (board : Board) (phase : Phase) (pair : Pair) : Decidable (phase.consistent board pair) :=
  decidable_of_iff (∀ origin ∈ phase.origins pair, (recordOf (board .continuity) pair).isSome ∧
      origin.agrees ((board .pending).find? pair).isSome phase.reported) <| by
    unfold Phase.consistent
    cases phase.origins pair with
    | none => simp
    | some origin => cases phase.reported <;> simp [Origin.agrees]

/-- A source starts the graph, and an operator answers its interrupt. -/
def startAndAnswer : List Operation :=
  [.route .manual "signal-1" [("subject", .str "42")] 10 0,
    .submit ApprovalInbox.grantSubmission EntityAuth.opaqueBoundary]

/-- The backend names the resumed Assistant, which succeeds. -/
def resumedAs (assistant : String) : Operation → Script
  | .submit .. => fun past target =>
      match target with
      | .authorize .. => .ok ⟨true, "authorized"⟩
      | .describeRun .. => .ok ⟨some assistant, "interrupted", some "42"⟩
      | .lastPoll .. => .ok "success"
      | .execute .. => .ok ⟨"run-3", "thread-3", .interrupted⟩
      | other => ApprovalInbox.grantScript past other
  | _ => calm

/-- The board of these sessions has no entries. -/
theorem anchored_reviewed : Anchored reviewed := by
  intro pair entry present
  cases present

theorem same_completion_answered :
    ∃ final, (operations Phase.consistent).Session startAndAnswer (reviewed, start) final ∧
      final.2.routed.map Prod.fst = [⟨"run-1", "42", "local", "graph", "success", 0⟩] ∧
      ∀ routed ∈ final.2.routed, routed.1 = routed.2.run := by
  let play := (operations Phase.consistent).exec (fun op => (resumedAs "graph" op).resolver) startAndAnswer
    (reviewed, start)
  obtain ⟨final, ended⟩ := Option.isSome_iff_exists.mp (show play.isSome = true by decide +kernel)
  have logs : play.map (fun final => final.2.routed.map Prod.fst) =
      some [⟨"run-1", "42", "local", "graph", "success", 0⟩] := by decide +kernel
  rw [ended] at logs
  have session := (operations Phase.consistent).exec_session ended
  exact ⟨final, session, Option.some.inj logs, same_completion anchored_reviewed session⟩

/-- The backend names another Assistant, and the submission routes its name. -/
theorem completion_renamed :
    ∃ ops final, (operations unlimited).Session ops (reviewed, start) final ∧ Anchored reviewed ∧
      ∃ routed ∈ final.2.routed, routed.1 ≠ routed.2.run := by
  let play := (operations unlimited).exec (fun op => (resumedAs "renamed" op).resolver) startAndAnswer (reviewed, start)
  obtain ⟨final, ended⟩ := Option.isSome_iff_exists.mp (show play.isSome = true by decide +kernel)
  have logs : play.map (fun final => final.2.routed.map fun routed => (routed.1, routed.2.run)) =
      some [(⟨"run-1", "42", "local", "renamed", "success", 0⟩, ⟨"run-1", "42", "local", "graph", "success", 0⟩)] := by
    decide +kernel
  rw [ended] at logs
  have session := (operations unlimited).exec_session ended
  refine ⟨startAndAnswer, final, session, anchored_reviewed, ?_⟩
  obtain ⟨routed, member, same⟩ := List.mem_map.mp ((Option.some.inj logs) ▸ List.mem_singleton_self _)
  refine ⟨routed, member, ?_⟩
  obtain ⟨actual, expected⟩ := Prod.mk.inj same
  rw [actual, expected]
  decide

end Cordboard.Provenance
