import Cordboard.Proof.Response.SlotInvariant
import Cordboard.Proof.Script

namespace Cordboard.ApprovalInbox
open Data Effects ResponseDedupe Router
open DeploymentLifecycle (ensureStarted_inside releaseActive_inside)

/-- The rest of the program keeps every guard of the slot protocol from this phase on. -/
abbrev ObeysSlot {A : Type} (slot : Slot) (program : Py A) (phase : Phase) : Prop :=
  Fallible.wp (slotProtocol slot).machine program (fun _ _ _ => True) phase

/-- The slot of the interrupt that a submission answers. -/
def Submission.slot (submission : Submission) : Slot :=
  (submission.deployment, submission.threadId, submission.interruptId)

section
variable {A B : Type} {slot : Slot} {phase : Phase}

/-- A program outside the slot areas may stand before any other one. -/
theorem obeysSlot_seq {areas : List Area} (disjoint : ∀ area ∈ areas, area ∉ slotAreas) {program : Py A}
    (within : Within areas program) {rest : A → Py B} (returned : ∀ value, ObeysSlot slot (rest value) phase) :
    ObeysSlot slot (program >>= rest) phase :=
  Fallible.wp_seq (wp_neutral_slot slot phase disjoint within) (fun _ value _ same => same ▸ returned value)
    fun _ _ _ _ => trivial

theorem obeysSlot_within {areas : List Area} (disjoint : ∀ area ∈ areas, area ∉ slotAreas) {program : Py A}
    (within : Within areas program) : ObeysSlot slot program phase :=
  Fallible.wp_mono (wp_neutral_slot slot phase disjoint within) fun _ _ _ _ => trivial

end

section
variable (slot : Slot) (submission : Submission)

/-- An outcome may be recorded before any program that obeys the protocol. -/
theorem obeysSlot_outcome {A : Type} (outcome : ResponseOutcome) (right : Right) {rest : Unit → Py A}
    (returned : ObeysSlot slot (rest ()) ⟨.outside, right⟩) :
    ObeysSlot slot (recordOutcome submission outcome >>= rest) ⟨.outside, right⟩ := by
  have recorded : Fallible.wp (slotProtocol slot).machine (ApprovalInbox.recordOutcome submission outcome)
      (fun _ _ after => after = ⟨.outside, right⟩) ⟨.outside, right⟩ :=
    Fallible.wp_seq (recordOutcome_slot slot _ _ _ outcome _ right) (fun _ _ _ same => same) fun _ _ _ same => same
  refine Fallible.wp_seq recorded ?_ fun _ _ _ _ => trivial
  rintro _ _ _ rfl
  exact returned

/-- Only a granted right reaches `backend.resume`. -/
theorem resumeAuthorized_slot (endpoint : String) (described : Described) (right : Right)
    (won : slot = submission.slot → right = .granted) :
    ObeysSlot slot (resumeAuthorized submission endpoint described) ⟨.outside, right⟩ := by
  refine obeysSlot_seq (by decide) (PendingCompletions.getPending_inside _ _) fun pending => ?_
  dsimp only
  rw [ObeysSlot, Fallible.wp_bind, wp_note]
  refine ⟨fun same => won same.symm, ?_⟩
  rintro _ rfl
  refine obeysSlot_seq (by decide) (AegraBackend.resume_within _ _ _ _ _ _).attempt fun answer => ?_
  cases answer with
  | error exc =>
      dsimp only
      split
      · exact obeysSlot_outcome slot submission _ _ trivial
      · trivial
  | ok result =>
      have learned : Inside .knowledge (note (.learned submission.deployment submission.threadId
          result.invocationId (learnedResult result))) := note_inside _
      refine obeysSlot_seq (by decide) learned fun _ => ?_
      refine obeysSlot_outcome slot submission _ _ ?_
      refine obeysSlot_seq (by decide) (closeClock_inside _) fun _ => ?_
      exact obeysSlot_within (by decide) (afterResume_within _ _ _ _ _)

/-- The authorization neither needs nor gives a right. -/
theorem authorizeState_slot (boundary : EntityAuthBoundary) (endpoint : String) (state : Json) (right : Right)
    (won : slot = submission.slot → right = .granted) :
    ObeysSlot slot (authorizeState submission boundary endpoint state) ⟨.outside, right⟩ := by
  have facts : Within [] (Fallible.ofExcept (readPending state submission.interruptId) : Py ThreadFacts) :=
    ofExcept_within _
  refine obeysSlot_seq (by decide) facts fun facts => ?_
  refine obeysSlot_seq (by decide) (describePending_within _ _ _) fun described => ?_
  refine obeysSlot_seq (by decide) (boundary.authorize_inside _ _ _) fun decision => ?_
  split
  · exact obeysSlot_outcome slot submission _ _ trivial
  · exact resumeAuthorized_slot slot submission _ _ _ won

/-- The claim of the submission decides whether it may resume. -/
theorem submitClaimed_slot (boundary : EntityAuthBoundary) (endpoint : String) :
    ObeysSlot slot (submitClaimed submission boundary endpoint) ⟨.outside, .none⟩ := by
  refine Fallible.wp_seq (claim_slot slot _ _ _ _ _) ?_ fun _ _ _ _ => trivial
  rintro _ answered _ rfl
  cases answered with
  | false => trivial
  | true =>
      refine obeysSlot_seq (by decide) (AegraBackend.getState_inside _ _).attempt fun state => ?_
      cases state with
      | error exc =>
          dsimp only
          split
          · exact obeysSlot_outcome slot submission _ _ trivial
          · trivial
      | ok state => exact authorizeState_slot slot submission _ _ _ _ fun same => if_pos same

/-- Every submission obeys the slot protocol from the start. -/
theorem submitResponse_slot (boundary : EntityAuthBoundary) :
    ObeysSlot slot (submitResponse submission boundary) ⟨.outside, .none⟩ := by
  refine obeysSlot_seq (by decide) (load_inside .connections) fun connections => ?_
  split
  · trivial
  · rename_i connection _
    have settle : ObeysSlot slot (settleSubmission submission boundary connection) ⟨.outside, .none⟩ := by
      rw [settleSubmission, ObeysSlot, Fallible.wp_bind, Fallible.wp_attempt]
      refine Fallible.wp_mono (submitClaimed_slot slot submission boundary connection.endpoint) ?_
      intro trace outcome phase _
      cases outcome with
      | error exc => exact obeysSlot_seq (by decide) (releaseActive_inside _ _ _ rfl) fun _ => trivial
      | ok answer =>
          refine obeysSlot_seq (by decide) (whenever_within (releaseActive_inside _ _ _ rfl)) fun _ => ?_
          rw [ObeysSlot, Fallible.wp_ofExcept]
          trivial
    refine obeysSlot_seq (by decide) (ensureStarted_inside _ _ _ _ _) fun started => ?_
    cases started with
    | startFailed error => trivial
    | external => exact settle
    | running pid => exact settle

end

/-- Two operators answer the same interrupt, and a third process stops while it owns the lock. -/
def raceBoard : Board
  | .connections => .content (Dict.empty.set "local" ⟨"http://localhost", [], none⟩)
  | .continuity => .content (Dict.empty.set "local" (Dict.empty.set "thread-1" ⟨"run-1", ["run-1"]⟩))
  | _ => .missing

def raceSubmission : Submission :=
  ⟨"local", "thread-1", "interrupt-1", "operator", .bool true, some "revision-1", 0, 120⟩

def raceScript : SharedScript := fun _ past target =>
  match target with
  | .threadState .. => .ok (.obj [("checkpoint_id", .str "revision-1"),
      ("tasks", .arr [.obj [("interrupts", .arr [.obj [("id", .str "interrupt-1")]])]])])
  | .authorize .. => .ok ⟨true, "authorized"⟩
  | other => calm past other

def race : Option (Reached signature World Pid (Except Exc SubmissionResult)) :=
  raceScript.play anyStep (fun _ => submitResponse raceSubmission EntityAuth.opaqueBoundary) raceBoard
    (turnsOf 2 2 ++ [.crash 2] ++ turnsOf 0 2 ++ turnsOf 1 1 ++ turnsOf 0 3 ++ turnsOf 1 4 ++ turnsOf 0 14)

end Cordboard.ApprovalInbox
