import Cordboard.Proof.Cascade.CascadeSweep

namespace Cordboard.Provenance
open Data Effects ApprovalInbox
open PendingCompletions (Pair)
open RunContinuity (recordOf)
open Router DeploymentLifecycle

/-- The phase waits for no Thread and knows no report. -/
def Fresh (phase : Phase) : Prop := phase.accepted = none ∧ phase.reported = none

/-- The description of a submission is the report of the backend, or it is empty. -/
def Describes (phase : Phase) (described : Described) : Prop :=
  match phase.reported with
  | some info => described = ⟨info.assistantId.getD "", info.subject⟩
  | none => described = ⟨"", none⟩

/-- A named resume carries the completion of its origin. -/
def Names (origins : Pair → Option Origin) (pair : Pair) (assistant : String) (subject : Option String)
    (cascadeDepth : Nat) : Prop :=
  ∀ origin, origins pair = some origin → assistant ≠ "" →
    subject = some origin.run.subject ∧ assistant = origin.run.assistant ∧ cascadeDepth = origin.run.cascadeDepth

section
variable {strict : Prop} {limit : Limit} {board : Board} {phase : Phase}

/-- A program outside the trace keeps the entries, the Threads, and the phase. -/
theorem still_aside {A : Type} {areas : List Area} {program : Py A} (within : Within areas program)
    (disjoint : ∀ area ∈ areas, area ∉ Area.store .pending :: .store .continuity :: phaseAreas) :
    Fallible.wp (tracing limit) program (fun _ _ after =>
      after.2 = phase ∧ after.1 .pending = board .pending ∧ after.1 .continuity = board .continuity) (board, phase) := by
  apply Fallible.wp_mono ((traceLens limit).keeps_still within disjoint (board, phase) (board, phase) (Lens.still_refl _))
  rintro _ _ ⟨after, _⟩ ⟨kept, moved⟩
  exact ⟨moved, kept .pending (by simp [traceLens]), kept .continuity (by simp [traceLens])⟩

/-- A read of one file keeps the board and the phase. -/
theorem read_aside {A : Type} {store : Store} {program : Py A} (inside : Inside (.store store) program)
    {holds : Except Exc A → Prop}
    (reads : Fallible.wp boardMachine program (fun _ outcome after => after = board ∧ holds outcome) board) :
    Fallible.wp (tracing limit) program (fun _ outcome after => after = (board, phase) ∧ holds outcome)
      (board, phase) := by
  apply Fallible.wp_mono ((phaseLens limit).wp_beside inside (store_outside limit _) reads phase)
  rintro _ outcome ⟨after, _⟩ ⟨⟨same, held⟩, rfl, _⟩
  obtain rfl : after = board := same
  exact ⟨rfl, held⟩

/-- The latest invocation is described by the report of the backend. -/
theorem describeLatest_traced (traced : Traced strict [] (board, phase)) (fresh : Fresh phase)
    (submission : Submission) (endpoint : String) :
    Fallible.wp (tracing limit) (describeLatest submission endpoint) (fun _ outcome after => Traced strict [] after ∧
      after.2.accepted = none ∧ ∀ described, outcome = .ok described → Describes after.2 described) (board, phase) := by
  have reported (report : Option RunInfo) : Traced strict [] (board, { phase with reported := report }) :=
    ⟨traced.placed, traced.entries, traced.items, traced.executions, traced.routed⟩
  have looks : Fallible.wp boardMachine (RunContinuity.logicalRun submission.deployment submission.threadId)
      (fun _ outcome after => after = board ∧ True) board := by
    apply RunContinuity.logicalRun_ends board
    · exact fun _ _ _ _ => ⟨rfl, trivial⟩
    · exact fun _ _ _ _ _ => ⟨rfl, trivial⟩
    · exact fun _ _ => ⟨rfl, trivial⟩
  unfold describeLatest
  refine @Fallible.wp_caught _ _ _ _ _ (tracing limit) (fun _ outcome after => Traced strict [] after ∧
    after.2.accepted = none ∧ after.2.reported = outcome.toOption) _ _ _ _ ?_ ?_
  · apply Fallible.wp_seq (read_aside (RunContinuity.logicalRun_inside _ _) looks)
    · rintro _ record _ ⟨rfl, _⟩
      split
      · exact ⟨traced, fresh⟩
      · unfold AegraBackend.getRun
        rw [Fallible.wp_bind]
        apply watched_call (free limit)
        intro answer _
        rw [Fallible.after_ok, Fallible.wp_ofExcept]
        exact ⟨reported _, fresh.1, rfl⟩
    · rintro _ exc _ ⟨rfl, _⟩
      exact ⟨traced, fresh⟩
  · rintro _ outcome ⟨after, moved⟩ ⟨kept, idle, report⟩
    cases outcome with
    | ok info =>
        refine ⟨kept, idle, ?_⟩
        intro described same
        obtain rfl := Except.ok.inj same
        unfold Describes
        rw [show (after, moved).2.reported = some info from report]
    | error exc =>
        dsimp only
        split
        · refine ⟨kept, idle, ?_⟩
          intro described same
          obtain rfl := Except.ok.inj same
          unfold Describes
          rw [show (after, moved).2.reported = none from report]
        · refine ⟨kept, idle, ?_⟩
          intro described same
          cases same

theorem describePending_traced (traced : Traced strict [] (board, phase)) (fresh : Fresh phase)
    (submission : Submission) (endpoint : String) (stillPending : Bool) :
    Fallible.wp (tracing limit) (describePending submission endpoint stillPending)
      (fun _ outcome after => Traced strict [] after ∧ after.2.accepted = none ∧
        ∀ described, outcome = .ok described → Describes after.2 described) (board, phase) := by
  unfold describePending
  split
  · exact describeLatest_traced traced fresh submission endpoint
  · refine ⟨traced, fresh.1, ?_⟩
    intro described same
    obtain rfl := Except.ok.inj same
    unfold Describes
    rw [fresh.2]

/-- A consistent resume is named by its origin. -/
theorem names_of_consistent (traced : Traced strict [] (board, phase)) {pair : Pair}
    (consistent : phase.consistent board pair) {described : Described} (describes : Describes phase described) :
    Names phase.origins pair described.assistant (subjectOf described ((board .pending).find? pair))
      ((((board .pending).find? pair).map PendingEntry.cascadeDepth).getD 0) := by
  intro origin known named
  unfold Phase.consistent at consistent
  unfold Describes at describes
  rw [known] at consistent
  cases report : phase.reported with
  | none =>
      rw [report] at describes
      exact absurd (congrArg Described.assistant describes) named
  | some info =>
      rw [report] at describes consistent
      subst describes
      have reports : Reports origin info ((board .pending).find? pair).isSome := consistent.2
      cases tracked : (board .pending).find? pair with
      | none =>
          rw [tracked] at reports
          have subject : info.subject = some origin.run.subject := by simpa using reports.subject
          have cascadeDepth : origin.run.cascadeDepth = 0 := by simpa using reports.cascadeDepth
          refine ⟨?_, reports.assistant, cascadeDepth.symm⟩
          unfold subjectOf
          split <;> exact subject
      | some entry =>
          have agrees := (traced.entries pair entry tracked).agrees origin known
          refine ⟨?_, reports.assistant, agrees.cascadeDepth⟩
          unfold subjectOf
          split
          · rename_i shown
            rcases reports.subject with subject | ⟨hidden, _⟩
            · exact subject
            · rw [hidden] at shown
              cases shown
          · exact congrArg some agrees.subject

/-- A resume keeps the logical Run of a recorded Thread. -/
theorem resume_traced (traced : Traced strict [] (board, phase)) {endpoint deployment threadId assistant : String}
    (recorded : ∀ origin, phase.origins (deployment, threadId) = some origin →
      (recordOf (board .continuity) (deployment, threadId)).isSome) (resumeValue : Json) (timeout : Time) :
    Fallible.wp (tracing limit) (AegraBackend.resume endpoint deployment threadId assistant resumeValue timeout)
      (fun _ outcome after => Traced strict [] after ∧ after.2 = phase ∧ ∀ result, outcome = .ok result →
        ∃ record, recordOf (after.1 .continuity) (deployment, threadId) = some record ∧
          record.runId = result.logicalRunId) (board, phase) := by
  unfold AegraBackend.resume
  split
  · exact ⟨traced, rfl, by simp⟩
  split
  · exact ⟨traced, rfl, by simp⟩
  rw [Fallible.wp_bind]
  apply watched_call (free limit)
  intro answer _
  rw [Fallible.after_ok, Fallible.wp_bind, Fallible.wp_ofExcept]
  cases answer with
  | error exc => exact ⟨traced, rfl, by simp⟩
  | ok invocationId =>
      rw [Fallible.after_ok]
      have waits : Fallible.wp (tracing limit) (AegraBackend.waitForRun endpoint threadId invocationId timeout)
          (fun _ _ after => after = (board, phase)) (board, phase) := by
        unfold AegraBackend.waitForRun
        rw [Fallible.wp_bind]
        apply watched_call (free limit)
        intro polled _
        rw [Fallible.after_ok]
        cases polled with
        | error exc =>
            dsimp only
            split
            · rfl
            · rfl
        | ok raw =>
            dsimp only
            split
            · rfl
            · rfl
      apply Fallible.wp_seq waits
      · rintro _ waited _ rfl
        have joins := @recordSubmission_traced strict [] limit board phase traced deployment threadId invocationId (by
          intro origin known absent
          have present := recorded origin known
          rw [absent] at present
          cases present)
        apply Fallible.wp_seq joins
        · rintro _ runId ⟨after, _⟩ ⟨joined, rfl, _, anchored⟩
          refine ⟨joined, rfl, ?_⟩
          intro result same
          obtain rfl := Except.ok.inj same
          exact anchored runId rfl
        · rintro _ exc ⟨after, _⟩ ⟨joined, rfl, _⟩
          exact ⟨joined, rfl, by simp⟩
      · rintro _ exc _ rfl
        exact ⟨traced, rfl, by simp⟩

end

section
variable {limit : Limit} {board : Board} {phase : Phase} {submission : Submission} {assistant : String}
  {subject : Option String} {cascadeDepth : Nat} {result : ExecutionResult}

/-- The completion of a resume suits its cause. -/
theorem suits_of_resume (traced : Traced False [] (board, phase))
    (caused : phase.cause = phase.completion (submission.deployment, submission.threadId))
    (names : Names phase.origins (submission.deployment, submission.threadId) assistant subject cascadeDepth)
    (logical : ∀ origin, phase.origins (submission.deployment, submission.threadId) = some origin →
      origin.run.runId = result.logicalRunId) {text : String} (about : subject = some text) (named : assistant ≠ "") :
    Suits False phase
      (.finished ⟨result.logicalRunId, text, submission.deployment, assistant, "success", cascadeDepth⟩) := by
  unfold Phase.completion at caused
  cases known : phase.origins (submission.deployment, submission.threadId) with
  | none =>
      rw [known] at caused
      exact .inr ⟨id, caused⟩
  | some origin =>
      rw [known] at caused
      have placed := traced.placed _ origin known
      obtain ⟨sameSubject, sameAssistant, sameDepth⟩ := names origin known named
      refine .inl ⟨origin, caused, ?_, fun strictly => strictly.elim⟩
      obtain ⟨⟨id, other, connection, graph, status, depth⟩, hops⟩ := origin
      obtain rfl : id = result.logicalRunId := logical _ known
      obtain rfl : connection = submission.deployment := placed.connection
      obtain rfl : status = "success" := placed.status
      obtain rfl : text = other := Option.some.inj (about.symm.trans sameSubject)
      rw [sameAssistant, sameDepth]

/-- What follows a resume keeps the invariant. -/
theorem afterResume_traced (traced : Traced False [] (board, phase))
    (caused : result.status = .succeeded →
      phase.cause = phase.completion (submission.deployment, submission.threadId))
    (names : Names phase.origins (submission.deployment, submission.threadId) assistant subject cascadeDepth)
    {record : LogicalRun}
    (recorded : recordOf (board .continuity) (submission.deployment, submission.threadId) = some record)
    (logical : record.runId = result.logicalRunId) :
    Fallible.wp (tracing limit) (afterResume submission assistant subject cascadeDepth result)
      (fun _ _ after => Traced False [] after) (board, phase) := by
  have track (held : Bool) : Fallible.wp (tracing limit) (PendingCompletions.recordPending submission.deployment
      submission.threadId result.invocationId assistant (subject.getD "") cascadeDepth false held submission.now)
      (fun _ _ after => Traced False [] after ∧ after.2 = phase) (board, phase) := by
    apply recordPending_traced traced ⟨submission.deployment, submission.threadId, result.invocationId, assistant,
      subject.getD "", cascadeDepth, false, held, submission.now⟩
    intro named
    refine ⟨by rw [recorded]; rfl, ?_, fun strictly => strictly.elim⟩
    intro origin known
    have present : assistant ≠ "" := by
      rintro rfl
      cases named
    obtain ⟨sameSubject, sameAssistant, sameDepth⟩ := names origin known present
    exact ⟨sameAssistant, by rw [sameSubject]; rfl, sameDepth⟩
  have known : ∀ origin, phase.origins (submission.deployment, submission.threadId) = some origin →
      origin.run.runId = result.logicalRunId := by
    intro origin submitted
    exact ((traced.placed _ origin submitted).logical record recorded).symm.trans logical
  unfold afterResume
  dsimp only
  split
  · rename_i succeeded
    apply Fallible.wp_seq (resolvePending_traced traced submission.deployment submission.threadId)
    · rintro _ _ ⟨resolved, _⟩ ⟨removed, rfl⟩
      cases about : subject with
      | none => exact removed
      | some text =>
          dsimp only
          split
          · rename_i present
            rw [about] at names
            have suits := suits_of_resume removed (caused succeeded) names known rfl present.2
            rw [Fallible.wp_bind, Fallible.wp_ofExcept]
            unfold runFinishedSignal
            dsimp only
            split
            · exact removed
            · rw [Fallible.after_ok]
              apply Fallible.wp_seq (routeSignal_traced removed suits)
              · exact fun _ _ _ kept => kept
              · exact fun _ _ _ kept => kept
          · exact removed
    · exact fun _ _ _ kept => kept.1
  split
  · apply Fallible.wp_seq (track false)
    · exact fun _ _ _ kept => kept.1
    · exact fun _ _ _ kept => kept.1
  split
  · apply Fallible.wp_caught (track true)
    exact fun _ _ _ kept => kept.1
  split
  · exact traced
  · exact traced

/-- A recorded outcome touches nothing that the trace follows. -/
theorem recordOutcome_traced (holds : Phase → Prop) (outcome : ResponseOutcome) {answered : Answered}
    (traced : Traced False [] (board, phase)) (held : holds phase) :
    Fallible.wp (tracing limit) (recordOutcome submission outcome >>= fun _ => pure answered)
      (fun _ _ after => Traced False [] after) (board, phase) := by
  apply Fallible.wp_seq (aside holds (recordOutcome_inside submission outcome) (by decide) traced held)
  · exact fun _ _ _ kept => kept.1
  · exact fun _ _ _ kept => kept.1

/-- An accepted resume is completed under its cause. -/
theorem resumed_traced (traced : Traced False [] (board, phase)) (idle : phase.accepted = none)
    (names : Names phase.origins (submission.deployment, submission.threadId) assistant subject cascadeDepth)
    {record : LogicalRun}
    (recorded : recordOf (board .continuity) (submission.deployment, submission.threadId) = some record)
    (logical : record.runId = result.logicalRunId) :
    Fallible.wp (tracing limit) (do
        note (.learned submission.deployment submission.threadId result.invocationId (learnedResult result))
        recordOutcome submission .resumed
        closeClock submission
        afterResume submission assistant subject cascadeDepth result)
      (fun _ _ after => Traced False [] after) (board, phase) := by
  have learned : phase.learn (submission.deployment, submission.threadId) result.invocationId (learnedResult result) =
      phase.complete (submission.deployment, submission.threadId) (learnedResult result) := by
    simp only [Phase.learn, idle]
  have completed := traced.complete (submission.deployment, submission.threadId) (learnedResult result)
  have caused : result.status = .succeeded →
      (phase.complete (submission.deployment, submission.threadId) (learnedResult result)).cause =
        (phase.complete (submission.deployment, submission.threadId) (learnedResult result)).completion
          (submission.deployment, submission.threadId) := by
    intro succeeded
    simp [Phase.complete, Phase.completion, learnedResult, succeeded]
  have origins : (phase.complete (submission.deployment, submission.threadId) (learnedResult result)).origins =
      phase.origins := by
    unfold Phase.complete
    split <;> rfl
  rw [← origins] at names
  rw [Fallible.wp_bind]
  apply watched_note (free limit)
  intro _
  rw [Fallible.after_ok]
  change Fallible.wp _ _ _ (board, phase.learn (submission.deployment, submission.threadId) result.invocationId
    (learnedResult result))
  rw [learned]
  apply Fallible.wp_seq (still_aside (recordOutcome_inside submission .resumed) (by decide))
  · rintro _ _ ⟨noted, _⟩ ⟨rfl, entries, threads⟩
    have kept := completed.still entries threads
    apply Fallible.wp_seq (still_aside (closeClock_inside submission) (by decide))
    · rintro _ _ ⟨closed, _⟩ ⟨rfl, sameEntries, sameThreads⟩
      have present : recordOf (closed .continuity) (submission.deployment, submission.threadId) = some record := by
        have same : closed .continuity = board .continuity := sameThreads.trans threads
        rw [same]
        exact recorded
      exact afterResume_traced (kept.still sameEntries sameThreads) caused names present logical
    · rintro _ exc ⟨closed, _⟩ ⟨rfl, sameEntries, sameThreads⟩
      exact kept.still sameEntries sameThreads
  · rintro _ exc ⟨noted, _⟩ ⟨rfl, entries, threads⟩
    exact completed.still entries threads

/-- A permitted resume is consistent, and its completion is the one of its origin. -/
theorem resumeAuthorized_traced (traced : Traced False [] (board, phase)) (idle : phase.accepted = none)
    {described : Described} (describes : Describes phase described) (endpoint : String) :
    Fallible.wp (tracing Phase.consistent) (resumeAuthorized submission endpoint described)
      (fun _ _ after => Traced False [] after) (board, phase) := by
  have looks : Fallible.wp boardMachine (PendingCompletions.getPending submission.deployment submission.threadId)
      (fun _ outcome after => after = board ∧ ∀ pending, outcome = .ok pending →
        pending = (board .pending).find? (submission.deployment, submission.threadId)) board := by
    apply PendingCompletions.getPending_ends board
    · intro data decoded
      refine ⟨rfl, ?_⟩
      intro pending same
      rw [← Except.ok.inj same, PendingCompletions.find?_of_decode decoded]
    · exact fun _ _ => ⟨rfl, by simp⟩
  unfold resumeAuthorized
  apply Fallible.wp_seq (read_aside (PendingCompletions.getPending_inside _ _) looks)
  · rintro _ pending _ ⟨rfl, found⟩
    obtain rfl := found pending rfl
    dsimp only
    rw [Fallible.wp_bind]
    apply watched_note (free _)
    intro consistent
    rw [Fallible.after_ok]
    have permitted : phase.consistent board (submission.deployment, submission.threadId) := consistent
    have names := names_of_consistent traced permitted describes
    have recorded : ∀ origin, phase.origins (submission.deployment, submission.threadId) = some origin →
        (recordOf (board .continuity) (submission.deployment, submission.threadId)).isSome := by
      intro origin known
      unfold Phase.consistent at permitted
      rw [known] at permitted
      exact permitted.1
    apply Fallible.wp_caught (resume_traced traced recorded _ _)
    rintro _ answer ⟨resumed, last⟩ ⟨kept, same, anchored⟩
    obtain rfl : last = phase := same
    cases answer with
    | error exc =>
        dsimp only
        split
        · exact recordOutcome_traced (fun _ => True) .unknown kept trivial
        · exact kept
    | ok result =>
        obtain ⟨record, present, logical⟩ := anchored result rfl
        exact resumed_traced kept idle names present logical
  · rintro _ exc _ ⟨rfl, _⟩
    exact traced

/-- The boundary decides before a resume is permitted. -/
theorem authorizeState_traced (traced : Traced False [] (board, phase)) (fresh : Fresh phase)
    (boundary : EntityAuthBoundary) (endpoint : String) (state : Json) :
    Fallible.wp (tracing Phase.consistent) (authorizeState submission boundary endpoint state)
      (fun _ _ after => Traced False [] after) (board, phase) := by
  unfold authorizeState
  rw [Fallible.wp_bind, Fallible.wp_ofExcept]
  cases readPending state submission.interruptId with
  | error exc => exact traced
  | ok facts =>
      rw [Fallible.after_ok]
      apply Fallible.wp_seq (describePending_traced traced fresh submission endpoint facts.stillPending)
      · rintro _ described ⟨shown, moved⟩ ⟨kept, idle, describes⟩
        apply Fallible.wp_seq (aside (fun phase => phase.accepted = none ∧ Describes phase described)
          (boundary.authorize_inside _ _ _) (by decide) kept ⟨idle, describes described rfl⟩)
        · rintro _ decision ⟨decided, last⟩ ⟨kept, idle, describes⟩
          split
          · exact recordOutcome_traced (fun _ => True) .rejected kept trivial
          · exact resumeAuthorized_traced kept idle describes endpoint
        · exact fun _ _ _ kept => kept.1
      · exact fun _ _ _ kept => kept.1

theorem submitClaimed_traced (traced : Traced False [] (board, phase)) (fresh : Fresh phase)
    (boundary : EntityAuthBoundary) (endpoint : String) :
    Fallible.wp (tracing Phase.consistent) (submitClaimed submission boundary endpoint)
      (fun _ _ after => Traced False [] after) (board, phase) := by
  unfold submitClaimed
  apply Fallible.wp_seq (aside Fresh (ResponseDedupe.claim_inside _ _ _ _) (by decide) traced fresh)
  · rintro _ granted ⟨claimed, last⟩ ⟨kept, fresh⟩
    split
    · exact kept
    · apply Fallible.wp_caught (aside Fresh (AegraBackend.getState_inside _ _) (by decide) kept fresh)
      rintro _ state ⟨read, moved⟩ ⟨kept, fresh⟩
      cases state with
      | error exc =>
          dsimp only
          split
          · exact recordOutcome_traced (fun _ => True) .unknown kept trivial
          · exact kept
      | ok state => exact authorizeState_traced kept fresh boundary endpoint state
  · exact fun _ _ _ kept => kept.1

theorem settleSubmission_traced (traced : Traced False [] (board, phase)) (fresh : Fresh phase)
    (boundary : EntityAuthBoundary) (connection : Connection) :
    Fallible.wp (tracing Phase.consistent) (settleSubmission submission boundary connection)
      (fun _ _ after => Traced False [] after) (board, phase) := by
  have releases : Inside (.store .lifecycle)
      (releaseActive submission.deployment connection submission.now .submission) := releaseActive_inside _ _ _ rfl
  unfold settleSubmission
  apply Fallible.wp_caught (submitClaimed_traced traced fresh boundary connection.endpoint)
  rintro _ answered ⟨settled, last⟩ kept
  cases answered with
  | error exc =>
      apply Fallible.wp_seq (aside (fun _ => True) releases (by decide) kept trivial)
      · exact fun _ _ _ kept => kept.1
      · exact fun _ _ _ kept => kept.1
  | ok answer =>
      apply Fallible.wp_seq (aside (fun _ => True) (whenever_within releases) (by decide) kept trivial)
      · rintro _ _ ⟨freed, moved⟩ ⟨kept, _⟩
        rw [Fallible.wp_ofExcept]
        exact kept
      · exact fun _ _ _ kept => kept.1

/-- A submission whose resumes are consistent keeps the invariant. -/
theorem submitResponse_traced (traced : Traced False [] (board, phase)) (fresh : Fresh phase)
    (boundary : EntityAuthBoundary) :
    Fallible.wp (tracing Phase.consistent) (submitResponse submission boundary) (fun _ _ after => Traced False [] after)
      (board, phase) := by
  unfold submitResponse
  apply Fallible.wp_seq (aside Fresh (load_inside .connections) (by decide) traced fresh)
  · rintro _ connections ⟨read, moved⟩ ⟨kept, fresh⟩
    split
    · exact kept
    · apply Fallible.wp_seq (aside Fresh (ensureStarted_inside _ _ _ _ _) (by decide) kept fresh)
      · rintro _ started ⟨ready, last⟩ ⟨kept, fresh⟩
        cases started with
        | startFailed error => exact kept
        | external => exact settleSubmission_traced kept fresh boundary _
        | running record => exact settleSubmission_traced kept fresh boundary _
      · exact fun _ _ _ kept => kept.1
  · exact fun _ _ _ kept => kept.1

end

end Cordboard.Provenance
