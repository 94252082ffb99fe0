import Cordboard.Proof.Response.Verdict

namespace Cordboard.Hearing
open Data Effects ApprovalInbox
open DeploymentLifecycle (releaseActive ensureStarted ensureStarted_inside releaseActive_inside)

/-- The body decides what the submission returns. -/
def returned (answered : Except Exc Answered) : Except Exc SubmissionResult := answered.bind Answered.result

/-- A claimed submission has recorded the outcome of its verdict, and it ends as the verdict says. -/
def Settled (submission : Submission) (board : Board) (trace : List signature.Event)
    (outcome : Except Exc SubmissionResult) (state : Board × Answers) : Prop :=
  state.2.claimed = true → submission.Named ∧
    outcomeIn state.1 submission.slot = (verdict submission board state.2).outcome ∧
    ∃ answered middle, Follows submission board trace (verdict submission board state.2) answered middle ∧
      state.1 .pending = middle .pending ∧ (Readable .lifecycle board → outcome = returned answered)

section
variable {submission : Submission} {board : Board} {answers : Answers}

/-- A release fails only when the file is unreadable. -/
theorem releaseActive_ends (board : Board) (deployment : String) (connection : Connection) (now : Time)
    (holder : Holder) :
    Fallible.wp boardMachine (releaseActive deployment connection now holder)
      (fun _ outcome _ => Readable .lifecycle board → outcome = .ok ()) board := by
  unfold releaseActive
  split
  · exact ⟨trivial, fun _ _ _ _ => rfl⟩
  apply wp_loaded .lifecycle
  · intro _ data _
    cases data.get? deployment with
    | none => exact ⟨trivial, fun _ _ _ _ => rfl⟩
    | some record =>
        dsimp only
        rw [Fallible.wp_ite]
        split
        · rw [Fallible.wp_bind]
          exact ⟨trivial, fun _ _ _ => ⟨trivial, fun _ _ _ _ => rfl⟩⟩
        · exact ⟨trivial, fun _ _ _ _ => rfl⟩
  · rintro _ exc failed ⟨data, decoded⟩
    rw [decoded] at failed
    cases failed

/-- The activity claim is dropped beside the ears. -/
theorem release_heard (connection : Connection) :
    Fallible.wp heardMachine (releaseActive submission.deployment connection submission.now .submission)
      (fun _ outcome state => (Readable .lifecycle board → outcome = .ok ()) ∧ state.2 = answers ∧
        outcomeIn state.1 submission.slot = outcomeIn board submission.slot ∧ state.1 .pending = board .pending)
      (board, answers) := by
  have inside : Inside (.store .lifecycle)
      (releaseActive submission.deployment connection submission.now .submission) := releaseActive_inside _ _ _ rfl
  have ends := Program.wp_and (releaseActive_ends board submission.deployment connection submission.now .submission)
    (wp_within inside board)
  apply Fallible.wp_mono (heardLens.wp_beside inside (by decide) ends answers)
  rintro _ outcome state ⟨⟨released, _, others⟩, heard, same⟩
  exact ⟨released, heard, outcomeIn_of_still same _, others .pending (by decide)⟩

/-- The `finally` block keeps what the body has recorded. -/
theorem settleSubmission_heard (connection : Connection) :
    Fallible.wp heardMachine (settleSubmission submission EntityAuth.opaqueBoundary connection)
      (fun trace outcome state => Settled submission board trace outcome state) (board, unheard) := by
  have body := Program.wp_and (submitClaimed_heard board connection.endpoint)
    (@wp_readable ears heard_free .lifecycle _ (submitClaimed submission EntityAuth.opaqueBoundary connection.endpoint)
      (board, unheard))
  apply Fallible.wp_caught body
  rintro earlier answered ⟨middle, heard⟩ ⟨ended, readable⟩
  -- The release comes after the body, whatever its outcome.
  have settles (trace : List signature.Event) {outcome : Except Exc SubmissionResult} {after : Board}
      (same : outcomeIn after submission.slot = outcomeIn middle submission.slot)
      (kept : after .pending = middle .pending) (sound : Readable .lifecycle middle → outcome = returned answered) :
      Settled submission board (earlier ++ trace) outcome (after, heard) := by
    intro claimed
    rcases ended with ⟨unclaimed, _⟩ | ⟨_, named, recorded, follows⟩
    · have clash : true = false := claimed.symm.trans unclaimed
      cases clash
    · exact ⟨named, same.trans recorded, answered, middle, follows.earlier trace, kept, fun start => sound (readable start)⟩
  cases answered with
  | error exc =>
      apply Fallible.wp_seq (release_heard connection)
      · rintro second _ ⟨after, _⟩ ⟨_, rfl, same, kept⟩
        exact settles _ same kept fun _ => rfl
      · rintro second failure ⟨after, _⟩ ⟨released, rfl, same, kept⟩
        apply settles _ same kept
        intro start
        have clash := released start
        cases clash
  | ok answer =>
      have dropped : Fallible.wp heardMachine (whenever (!answer.retainDeployment)
          (releaseActive submission.deployment connection submission.now .submission))
          (fun _ outcome state => (Readable .lifecycle middle → outcome = .ok ()) ∧ state.2 = heard ∧
            outcomeIn state.1 submission.slot = outcomeIn middle submission.slot ∧
            state.1 .pending = middle .pending) (middle, heard) := by
        rw [wp_whenever]
        split
        · exact release_heard connection
        · exact ⟨fun _ => rfl, rfl, rfl, rfl⟩
      apply Fallible.wp_seq dropped
      · rintro second _ ⟨after, _⟩ ⟨_, rfl, same, kept⟩
        rw [Fallible.wp_ofExcept]
        exact settles _ same kept fun _ => rfl
      · rintro second failure ⟨after, _⟩ ⟨released, rfl, same, kept⟩
        apply settles _ same kept
        intro start
        have clash := released start
        cases clash

/-- A whole submission ends as its answers say. -/
theorem submitResponse_heard : Fallible.wp heardMachine (submitResponse submission EntityAuth.opaqueBoundary)
    (fun trace outcome state => Settled submission board trace outcome state) (board, unheard) := by
  have unclaimed {trace : List signature.Event} {outcome : Except Exc SubmissionResult} {after : Board} :
      Settled submission board trace outcome (after, unheard) := fun claimed => by cases claimed
  have loads : Inside (.store .connections) loadConnections := load_inside .connections
  apply Fallible.wp_seq (heardLens.wp_beside loads (by decide) (wp_within loads board) unheard)
  · rintro first connections ⟨loaded, heard⟩ ⟨⟨_, others⟩, fresh, _⟩
    obtain rfl : unheard = heard := fresh.symm
    cases connections.get? submission.deployment with
    | none => exact unclaimed
    | some connection =>
        have starts := ensureStarted_inside submission.deployment connection submission.now healthTimeout .submission
        have both := Program.wp_and (heardLens.wp_beside starts (by decide) (wp_within starts loaded) unheard)
          (@wp_readable ears heard_free .lifecycle _ (ensureStarted submission.deployment connection submission.now
            healthTimeout .submission) (loaded, unheard))
        apply Fallible.wp_seq both
        · rintro second started ⟨middle, heard⟩ ⟨⟨⟨_, kept⟩, fresh, _⟩, readable⟩
          obtain rfl : unheard = heard := fresh.symm
          have same (store : Store) (outside : store ≠ .connections ∧ store ≠ .lifecycle) : middle store = board store := by
            rw [show middle store = loaded store from kept store (by simpa using outside.2),
              show loaded store = board store from others store (by simpa using outside.1)]
          have settled : Fallible.wp heardMachine
              (settleSubmission submission EntityAuth.opaqueBoundary connection)
              (fun trace outcome state => Settled submission board (first ++ (second ++ trace)) outcome state)
              (middle, unheard) := by
            apply Fallible.wp_mono (settleSubmission_heard connection)
            rintro trace outcome ⟨after, heard⟩ settled claimed
            obtain ⟨named, recorded, answered, ended, follows, entries, sound⟩ := settled claimed
            rw [verdict_congr (same .pending (by decide)) (same .continuity (by decide))] at recorded follows
            refine ⟨named, recorded, answered, ended, ?_, entries, ?_⟩
            · apply Follows.later
              apply Follows.later
              exact follows.transfer (same .pending (by decide)) (same .expiry (by decide))
            · intro start
              apply sound
              exact readable (start.stays (others .lifecycle (by decide)))
          cases started with
          | startFailed error => exact unclaimed
          | external => exact settled
          | running pid => exact settled
        · rintro _ _ ⟨after, _⟩ ⟨⟨_, rfl, _⟩, _⟩
          exact unclaimed
  · rintro _ _ ⟨after, _⟩ ⟨_, rfl, _⟩
    exact unclaimed

end

/-- The backend ends the resume of the described Thread, or its failure is a transport failure. -/
def Resumable (board : Board) (described : Described) (answers : Answers) : Prop :=
  Readable .pending board ∧ blank described.assistant = false ∧
    ((∃ exc, answers.submitted = some (.error exc) ∧ exc.isRuntimeError = true) ∨
      ∃ invocationId, answers.submitted = some (.ok invocationId) ∧ blank invocationId = false ∧
        (∃ ended, answers.polled.bind waited = some ended) ∧ Readable .continuity board)

/-- Each step between the claim and the outcome succeeds, or it fails with the transport failure that is caught. -/
def Settles (submission : Submission) (board : Board) (answers : Answers) : Prop :=
  (∃ exc, answers.state = some (.error exc) ∧ exc.isRuntimeError = true) ∨
    ∃ state facts described decision, answers.state = some (.ok state) ∧
      readPending state submission.interruptId = .ok facts ∧
      descriptionOf submission board answers.description facts.stillPending = some described ∧
      answers.decision = some (.ok decision) ∧ (decision.accepted = true → Resumable board described answers)

section
variable {submission : Submission} {board : Board} {answers : Answers}

/-- An accepted submission has an outcome exactly when its Thread is resumable. -/
theorem accepted_outcome (described : Described) :
    (acceptedVerdict submission board described answers.submitted answers.polled).outcome.isSome ↔
      Resumable board described answers := by
  unfold acceptedVerdict resumeVerdict Resumable Readable
  cases decode .pending (board .pending) with
  | error exc => simp [Verdict.outcome]
  | ok entries =>
      cases blank described.assistant with
      | true => simp [Verdict.outcome]
      | false =>
          rcases answers.submitted with _ | exc | invocationId
          · simp [Verdict.outcome]
          · cases kind : exc.isRuntimeError <;> simp [Verdict.outcome, kind]
          · cases decode .continuity (board .continuity) <;> cases answers.polled.bind waited <;>
              cases absent : blank invocationId <;> simp [Verdict.outcome, absent]

/-- The verdict has an outcome exactly when each step settles. -/
theorem verdict_outcome : (verdict submission board answers).outcome.isSome ↔ Settles submission board answers := by
  unfold verdict Settles
  rcases answers.state with _ | exc | state
  · simp [Verdict.outcome]
  · cases kind : exc.isRuntimeError <;> simp [Verdict.outcome, kind]
  · dsimp only
    cases read : readPending state submission.interruptId with
    | error exc => simp [Verdict.outcome, read]
    | ok facts =>
        dsimp only
        cases known : descriptionOf submission board answers.description facts.stillPending with
        | none => simp [Verdict.outcome, read, known]
        | some described =>
            unfold decidedVerdict
            rcases answers.decision with _ | exc | decision
            · simp [Verdict.outcome]
            · simp [Verdict.outcome]
            · cases granted : decision.accepted with
              | false => simp [Verdict.outcome, read, known, granted]
              | true => simpa [read, known, granted] using accepted_outcome described

end

end Cordboard.Hearing
