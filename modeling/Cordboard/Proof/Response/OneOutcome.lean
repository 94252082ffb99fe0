import Cordboard.Proof.Response.Authority
import Cordboard.Proof.Response.Settlement

namespace Cordboard.Hearing
open Data Effects ApprovalInbox

/-- A granted claim stays heard. -/
theorem claimed_next {answers : Answers} (claimed : answers.claimed = true) (op : Effect) (answer : op.Answer) :
    (answers.next op answer).claimed = true := by
  cases op with
  | note point => cases point <;> simp [Answers.next, claimed]
  | call target => cases target <;> exact claimed
  | _ => exact claimed

theorem claimed_after {answers : Answers} (claimed : answers.claimed = true) (trace : List signature.Event) :
    (ears.after answers trace).claimed = true := by
  induction trace generalizing answers with
  | nil => exact claimed
  | cons event trace ih => exact ih (claimed_next claimed event.1 event.2)

/-- The event grants the claim of the slot. -/
def grants (slot : ResponseDedupe.Slot) : signature.Event → Bool
  | ⟨.note (.responseClaimed deployment threadId interruptId true), _⟩ => (deployment, threadId, interruptId) = slot
  | _ => false

theorem granted_of_any {deployment threadId interruptId : String} {trace : List signature.Event}
    (found : trace.any (grants (deployment, threadId, interruptId)) = true) :
    (⟨.note (.responseClaimed deployment threadId interruptId true), ()⟩ : signature.Event) ∈ trace := by
  obtain ⟨event, member, grant⟩ := List.any_eq_true.mp found
  unfold grants at grant
  split at grant
  · obtain ⟨rfl, rfl, rfl⟩ : _ = deployment ∧ _ = threadId ∧ _ = interruptId := by simpa using grant
    exact member
  · cases grant

/-- A trace with a granted claim has heard it. -/
theorem claimed_of_granted {deployment threadId interruptId : String} {trace : List signature.Event}
    (granted : (⟨.note (.responseClaimed deployment threadId interruptId true), ()⟩ : signature.Event) ∈ trace)
    (answers : Answers) : (ears.after answers trace).claimed = true := by
  induction trace generalizing answers with
  | nil => cases granted
  | cons event trace ih =>
      rcases List.mem_cons.mp granted with rfl | later
      · exact claimed_after (by simp [Answers.next]) trace
      · exact ih later _

/-- A run of a submission is settled. -/
theorem settled_of_runs {submission : Submission} {board final : Board} {trace : List signature.Event}
    {outcome : Except Exc SubmissionResult}
    (run : Runs boardMachine (submitResponse submission EntityAuth.opaqueBoundary).toProgram board trace outcome final) :
    Settled submission board trace outcome (final, heardIn trace) := by
  have limitless (state : Board) (phase : Answers) (op : Effect) (answer : op.Answer) :
      ears.meets state phase op answer := trivial
  exact Fallible.wp_runs submitResponse_heard (@Watch.runs_along _ _ _ _ ears limitless _ _ _ _ _ run unheard)

/-- The authority accepts each answer. -/
def acceptScript : Script := fun past target =>
  match target with
  | .authorize .. => .ok ⟨true, "authorized"⟩
  | other => grantScript past other

def acceptRun : Result signature Board (Except Exc SubmissionResult) :=
  acceptScript.exec (submitResponse grantSubmission EntityAuth.opaqueBoundary) grantBoard

/-- This board knows the Deployment, and it has never submitted the Thread. -/
def strangerBoard : Board
  | .connections => .content (Dict.empty.set "local" ⟨"http://localhost", [], none⟩)
  | _ => .missing

def strangerRun : Result signature Board (Except Exc SubmissionResult) :=
  acceptScript.exec (submitResponse grantSubmission EntityAuth.opaqueBoundary) strangerBoard

end Cordboard.Hearing
