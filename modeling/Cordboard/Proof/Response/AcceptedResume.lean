import Cordboard.Proof.Response.OneOutcome

namespace Cordboard.Hearing
open Data Effects ApprovalInbox

/-- The result still needs an observer. -/
def Resumption.Waits (resumption : Resumption) : Prop :=
  resumption.result.status = .interrupted ∨ resumption.result.waitOutcome = .deadlineReached

/-- The board tracks the resumed invocation. -/
def Tracked (submission : Submission) (resumption : Resumption) (board : Board) : Prop :=
  ∃ entry, (board .pending).find? (pairOf submission) = some entry ∧
    entry.invocationId = resumption.result.invocationId

/-- The Subject and the logical Run pass the checks of the stores and of the Signal. -/
def Resumption.Identified (resumption : Resumption) : Prop :=
  (resumption.Waits → blank (resumption.subject.getD "") = false) ∧
    (resumption.result.status = .succeeded → ¬ resumption.Nameless)

section
variable {submission : Submission} {board : Board} {answers : Answers} {resumption : Resumption}

/-- A wait that reached its deadline leaves the Run queued or running. -/
theorem waiting_of_waited {poll : Except Exc String} {ended : RuntimeStatus × ClientWaitOutcome}
    (known : waited poll = some ended) (deadline : ended.2 = .deadlineReached) :
    ended.1 = .queued ∨ ended.1 = .running := by
  unfold waited at known
  split at known
  · split at known
    · obtain rfl := Option.some.inj known
      cases deadline
    · cases known
  · obtain rfl := Option.some.inj known
    dsimp only at deadline
    split at deadline
    · rename_i waiting
      rcases waiting with rfl | rfl
      · exact .inl rfl
      · exact .inr rfl
    · cases deadline

/-- A resumed verdict comes from the resume of the described Thread. -/
theorem resumed_described (resumed : verdict submission board answers = .resumed resumption) :
    ∃ described, resumeVerdict submission board described answers.submitted answers.polled = .resumed resumption := by
  unfold verdict at resumed
  split at resumed
  · cases resumed
  · split at resumed <;> cases resumed
  split at resumed
  · cases resumed
  split at resumed
  · cases resumed
  rename_i described _
  unfold decidedVerdict at resumed
  split at resumed
  · split at resumed
    · unfold acceptedVerdict at resumed
      split at resumed
      · cases resumed
      · exact ⟨described, resumed⟩
    · cases resumed
  · cases resumed

/-- An accepted resume reports what its last poll said. -/
theorem waiting_of_verdict (resumed : verdict submission board answers = .resumed resumption)
    (deadline : resumption.result.waitOutcome = .deadlineReached) :
    resumption.result.status = .queued ∨ resumption.result.status = .running := by
  obtain ⟨described, accepted⟩ := resumed_described resumed
  unfold resumeVerdict at accepted
  split at accepted
  · cases accepted
  split at accepted
  · cases accepted
  · split at accepted <;> cases accepted
  · split at accepted
    · rename_i ended _ known _
      split at accepted
      · cases accepted
      · obtain rfl := Verdict.resumed.inj accepted
        obtain ⟨poll, _, said⟩ := Option.bind_eq_some_iff.mp known
        exact waiting_of_waited said deadline
    · cases accepted

/-- The result of a resume that waits for its deadline is still active. -/
theorem learned_of_deadline (resumed : verdict submission board answers = .resumed resumption)
    (deadline : resumption.result.waitOutcome = .deadlineReached) : learnedResult resumption.result = .active := by
  unfold learnedResult
  rcases waiting_of_verdict resumed deadline with status | status <;> simp [status, deadline]

/-- A result is interrupted exactly when it is learned so. -/
theorem learned_interrupted : learnedResult resumption.result = .interrupted ↔
    resumption.result.status = .interrupted := by
  unfold learnedResult
  cases resumption.result.status <;> cases resumption.result.waitOutcome <;> simp

/-- A result succeeds exactly when it is learned so. -/
theorem learned_succeeded : learnedResult resumption.result = .succeeded ↔
    resumption.result.status = .succeeded := by
  unfold learnedResult
  cases resumption.result.status <;> cases resumption.result.waitOutcome <;> simp

/-- Only a wait that reached its deadline leaves an active Run. -/
theorem deadline_of_learned (learned : learnedResult resumption.result = .active) :
    resumption.result.waitOutcome = .deadlineReached := by
  unfold learnedResult at learned
  cases status : resumption.result.status <;> cases wait : resumption.result.waitOutcome <;>
    simp [status, wait] at learned ⊢

/-- A result waits exactly when it is learned to be interrupted or active. -/
theorem waits_iff (resumed : verdict submission board answers = .resumed resumption) : resumption.Waits ↔
    learnedResult resumption.result = .interrupted ∨ learnedResult resumption.result = .active := by
  constructor
  · rintro (interrupted | deadline)
    · exact .inl (learned_interrupted.mpr interrupted)
    · exact .inr (learned_of_deadline resumed deadline)
  · rintro (interrupted | active)
    · exact .inl (learned_interrupted.mp interrupted)
    · exact .inr (deadline_of_learned active)

/-- The conclusion of an accepted resume returns and tracks exactly when the Run is identified. -/
theorem concludes_iff {middle after : Board} {trace : List signature.Event} {answered : Except Exc Answered}
    (resumed : verdict submission board answers = .resumed resumption)
    (concludes : Concludes submission middle trace resumption answered after)
    (calm : ∀ exc, ¬ CascadeRaised submission trace exc) :
    (returned answered = .ok ⟨.resumed, none⟩ ∧ (resumption.Waits → Tracked submission resumption after)) ↔
      resumption.Identified := by
  unfold Resumption.Identified
  rw [waits_iff resumed, ← learned_succeeded]
  cases concludes with
  | refused learned nameless => simp [returned, Except.bind, learned, nameless]
  | raised learned cascade => exact absurd cascade (calm _)
  | finished learned named => simp [returned, Except.bind, learned, named]
  | unpaused learned nameless => simp [returned, Except.bind, learned, nameless]
  | paused learned named tracked =>
      have tracks : Tracked submission resumption after := ⟨_, tracked, rfl⟩
      simp [returned, Except.bind, learned, named, tracks]
  | lost learned nameless => simp [returned, Except.bind, learned, nameless]
  | running learned named tracked =>
      have tracks : Tracked submission resumption after := ⟨_, tracked, rfl⟩
      simp [returned, Except.bind, learned, named, tracks]
  | unobserved learned => simp [returned, Except.bind, learned]
  | terminated learned => simp [returned, Except.bind, learned]

end

/-- The event routes a completed Run. -/
def routes : signature.Event → Bool
  | ⟨.note (.routing _), _⟩ => true
  | _ => false

/-- A cascade notes the Run that it routes. -/
theorem routes_of_raised {submission : Submission} {trace : List signature.Event} {exc : Exc}
    (raised : CascadeRaised submission trace exc) : trace.any routes = true := by
  obtain ⟨before, cascade, later, start, finished, final, rfl, run⟩ := raised
  have routed : cascade.any routes = true := by
    cases run with
    | perform move rest => rfl
  rw [List.any_append, List.any_append, routed, Bool.or_true, Bool.true_or]

/-- The resumed Run of the accepted response pauses again. -/
def acceptResumption : Resumption :=
  ⟨⟨"graph", some "42"⟩, none, ⟨"run-1", "run-2", "thread-1", "graph", .interrupted, .completed⟩⟩

/-- The invocation reports no Subject. -/
def namelessScript : Script := fun past target =>
  match target with
  | .describeRun .. => .ok ⟨some "graph", "interrupted", none⟩
  | other => acceptScript past other

def namelessRun : Result signature Board (Except Exc SubmissionResult) :=
  namelessScript.exec (submitResponse grantSubmission EntityAuth.opaqueBoundary) grantBoard

end Cordboard.Hearing
