import Cordboard.Proof.Response.Hearing

namespace Cordboard.Hearing
open Data Effects ApprovalInbox ResponseDedupe
open PendingCompletions (Pair)
open RunContinuity (recordOf joined)

section
variable {submission : Submission} {board : Board} {answers : Answers}

/-- The texts of a slot are checked again. -/
theorem slot_checked (named : submission.Named) : checkTexts .responseDedupe
    [("deployment alias", submission.deployment), ("thread ID", submission.threadId),
      ("interrupt ID", submission.interruptId)] = .ok () := by
  simp [checkTexts, named.deployment, named.threadId, named.interruptId]

/-- A claimed slot takes its outcome. -/
theorem recordOutcome_heard (claimed : Claimed submission board) (outcome : ResponseOutcome) :
    Fallible.wp heardMachine (ApprovalInbox.recordOutcome submission outcome) (fun _ returned state =>
      returned = .ok () ∧ state.2 = answers ∧ outcomeIn state.1 submission.slot = some outcome ∧
        Apart [.responseDedupe] board state.1) (board, answers) := by
  obtain ⟨data, stored, present⟩ := claimed.stored
  have found : data.get? (submission.deployment, submission.threadId, submission.interruptId) =
      some ⟨submission.now, none, none⟩ := present
  rw [ApprovalInbox.recordOutcome, ResponseDedupe.recordOutcome, Fallible.wp_bind, Fallible.wp_bind, wp_key,
    slot_checked claimed.named]
  apply watched_locked heard_free (fun _ => rfl) fun _ => rfl
  rw [Fallible.wp_bind]
  apply watched_load heard_free
  intro _
  rw [stored]
  simp only [decode, Fallible.after_ok]
  rw [found]
  simp only [Option.isNone_none, if_true, Fallible.wp_bind]
  apply watched_write heard_free
  intro _
  refine ⟨rfl, rfl, ?_, ?_⟩
  · simp [outcomeIn, Submission.slot]
  · intro other different
    exact board.put_of_ne (by simpa using different) _

/-- The Thread is looked up beside the ears. -/
theorem logicalRun_heard : Fallible.wp heardMachine (RunContinuity.logicalRun submission.deployment submission.threadId)
    (fun _ outcome state => state = (board, answers) ∧
      ((∃ data record, decode .continuity (board .continuity) = .ok data ∧
          recordOf (board .continuity) (pairOf submission) = some record ∧ outcome = .ok record) ∨
        (∃ data exc, decode .continuity (board .continuity) = .ok data ∧ exc.kind = .unknownThread ∧
          recordOf (board .continuity) (pairOf submission) = none ∧ outcome = .error exc) ∨
        ∃ exc, decode .continuity (board .continuity) = .error exc ∧ outcome = .error exc)) (board, answers) := by
  have looked : Fallible.wp boardMachine (RunContinuity.logicalRun submission.deployment submission.threadId)
      (fun _ outcome after => after = board ∧
        ((∃ data record, decode .continuity (board .continuity) = .ok data ∧
            recordOf (board .continuity) (pairOf submission) = some record ∧ outcome = .ok record) ∨
          (∃ data exc, decode .continuity (board .continuity) = .ok data ∧ exc.kind = .unknownThread ∧
            recordOf (board .continuity) (pairOf submission) = none ∧ outcome = .error exc) ∨
          ∃ exc, decode .continuity (board .continuity) = .error exc ∧ outcome = .error exc)) board := by
    apply RunContinuity.logicalRun_ends
    · exact fun data record decoded known => ⟨rfl, .inl ⟨data, record, decoded, known, rfl⟩⟩
    · exact fun data exc decoded kind known => ⟨rfl, .inr (.inl ⟨data, exc, decoded, kind, known, rfl⟩)⟩
    · exact fun exc failed => ⟨rfl, .inr (.inr ⟨exc, failed, rfl⟩)⟩
  apply Fallible.wp_mono (heardLens.wp_beside (RunContinuity.logicalRun_inside _ _) (by decide) looked answers)
  rintro _ outcome ⟨after, phase⟩ ⟨⟨rfl, ended⟩, rfl, _⟩
  exact ⟨rfl, ended⟩

/-- The latest invocation of a Thread that waits is described. -/
theorem describeLatest_heard (endpoint : String) (fresh : answers.description = none) :
    Fallible.wp heardMachine (describeLatest submission endpoint) (fun _ outcome state =>
      ∃ description, outcome.toOption = descriptionOf submission board description true ∧
        state = (board, { answers with description := description })) (board, answers) := by
  have same : (board, answers) = (board, { answers with description := none }) := by rw [← fresh]
  refine @Fallible.wp_caught signature (Board × Answers) RunInfo Described Exc heardMachine (fun _ outcome state =>
    (∃ exc description, outcome = .error exc ∧ state = (board, { answers with description := description }) ∧
      descriptionOf submission board description true =
        if exc.isRuntimeError ∨ exc.kind = .unknownThread then some ⟨"", none⟩ else none) ∨
    ∃ info, outcome = .ok info ∧ state = (board, { answers with description := some (.ok info) }) ∧
      descriptionOf submission board (some (.ok info)) true = some ⟨info.assistantId.getD "", info.subject⟩)
    _ _ _ _ ?_ ?_
  · apply Fallible.wp_seq logicalRun_heard
    · rintro _ record state ⟨rfl, found | ⟨_, _, _, _, _, clash⟩ | ⟨_, _, clash⟩⟩
      · obtain ⟨data, found, decoded, known, returned⟩ := found
        obtain rfl : record = found := Except.ok.inj returned
        cases latest : record.apiRunIds.getLast? with
        | none =>
            have empty : record.apiRunIds = [] := by simpa using latest
            refine .inl ⟨_, none, rfl, same, ?_⟩
            simp [descriptionOf, decoded, known, empty, Exc.isRuntimeError]
        | some invocationId =>
            have filled : record.apiRunIds ≠ [] := fun empty => by simp [empty] at latest
            dsimp only
            rw [AegraBackend.getRun, Fallible.wp_bind]
            apply watched_call heard_free
            intro answer _
            rw [Fallible.after_ok, Fallible.wp_ofExcept]
            cases answer with
            | error exc =>
                refine .inl ⟨exc, some (.error exc), rfl, rfl, ?_⟩
                simp [descriptionOf, decoded, known, filled]
            | ok info =>
                refine .inr ⟨info, rfl, rfl, ?_⟩
                simp [descriptionOf, decoded, known, filled]
      · cases clash
      · cases clash
    · rintro _ exc state ⟨rfl, ⟨_, _, _, _, clash⟩ | ⟨data, _, decoded, kind, known, returned⟩ | ⟨_, failed, returned⟩⟩
      · cases clash
      · obtain rfl := Except.error.inj returned
        refine .inl ⟨_, none, rfl, same, ?_⟩
        simp [descriptionOf, decoded, known, kind]
      · obtain rfl := Except.error.inj returned
        refine .inl ⟨_, none, rfl, same, ?_⟩
        simp [descriptionOf, failed, Exc.isRuntimeError, kind_of_decode failed, Store.errorKind]
  · intro _ outcome state ended
    rcases ended with ⟨exc, description, rfl, rfl, known⟩ | ⟨info, rfl, rfl, known⟩
    · dsimp only
      split
      · rename_i caught
        rw [if_pos caught] at known
        exact ⟨description, known.symm, rfl⟩
      · rename_i uncaught
        rw [if_neg uncaught] at known
        exact ⟨description, known.symm, rfl⟩
    · exact ⟨_, known.symm, rfl⟩

/-- Only a Thread that waits is described. -/
theorem describePending_heard (endpoint : String) (stillPending : Bool) (fresh : answers.description = none) :
    Fallible.wp heardMachine (describePending submission endpoint stillPending) (fun _ outcome state =>
      ∃ description, outcome.toOption = descriptionOf submission board description stillPending ∧
        state = (board, { answers with description := description })) (board, answers) := by
  unfold describePending
  cases stillPending with
  | true => exact describeLatest_heard endpoint fresh
  | false =>
      have same : (board, answers) = (board, { answers with description := none }) := by rw [← fresh]
      exact ⟨none, rfl, same⟩

/-- A resumed invocation joins its Thread, or it has no ID, or the file is unreadable. -/
theorem joinThread_heard (named : submission.Named) (assistant invocationId : String)
    (ended : RuntimeStatus × ClientWaitOutcome) :
    Fallible.wp heardMachine (do
      let logicalRunId ← RunContinuity.recordSubmission submission.deployment submission.threadId invocationId
      pure ⟨logicalRunId, invocationId, submission.threadId, assistant, ended.1, ended.2⟩ : Py ExecutionResult)
      (fun _ outcome state => state.2 = answers ∧ Apart [.continuity] board state.1 ∧
        ((∃ data, decode .continuity (board .continuity) = .ok data ∧ blank invocationId = false ∧
            outcome = .ok (resultOf submission board assistant invocationId ended)) ∨
          ∃ exc, exc.isRuntimeError = false ∧ outcome = .error exc ∧
            (blank invocationId = true ∨ decode .continuity (board .continuity) = .error exc)))
      (board, answers) := by
  have joins : Fallible.wp boardMachine
      (RunContinuity.recordSubmission submission.deployment submission.threadId invocationId) (fun _ outcome after =>
        Apart [.continuity] board after ∧
        ((∃ data, decode .continuity (board .continuity) = .ok data ∧ blank invocationId = false ∧
            outcome = .ok (joined (recordOf (board .continuity) (pairOf submission)) invocationId).runId) ∨
          ∃ exc, exc.isRuntimeError = false ∧ outcome = .error exc ∧
            (blank invocationId = true ∨ decode .continuity (board .continuity) = .error exc))) board := by
    apply RunContinuity.recordSubmission_ends
    · intro data after decoded checked others _ _
      have present : blank invocationId = false := checkTexts_ok checked ("API Run ID", invocationId) (by simp)
      refine ⟨fun other different => others other (by simpa using different), .inl ⟨data, decoded, present, rfl⟩⟩
    · intro exc why
      refine ⟨fun _ _ => rfl, .inr ⟨exc, ?_, rfl, ?_⟩⟩
      · rcases why with nameless | failed
        · simp [Exc.isRuntimeError, kind_of_checkTexts nameless]
        · simp [Exc.isRuntimeError, kind_of_decode failed, Store.errorKind]
      · rcases why with nameless | failed
        · left
          cases absent : blank invocationId with
          | true => rfl
          | false => simp [checkTexts, named.deployment, named.threadId, absent] at nameless
        · exact .inr failed
  apply Fallible.wp_seq (heardLens.wp_beside (RunContinuity.recordSubmission_inside _ _ _) (by decide) joins answers)
  · rintro _ logicalRunId state ⟨⟨apart, ended⟩, heard, _⟩
    refine ⟨heard, apart, ?_⟩
    rcases ended with ⟨data, decoded, present, returned⟩ | ⟨exc, _, clash, _⟩
    · obtain rfl := Except.ok.inj returned
      exact .inl ⟨data, decoded, present, rfl⟩
    · cases clash
  · rintro _ exc state ⟨⟨apart, ended⟩, heard, _⟩
    refine ⟨heard, apart, ?_⟩
    rcases ended with ⟨_, _, _, clash⟩ | ⟨found, kind, returned, why⟩
    · cases clash
    · obtain rfl := Except.error.inj returned
      exact .inr ⟨exc, kind, rfl, why⟩

/-- The wait continues with the last poll. -/
theorem waitForRun_heard {A : Type} (endpoint invocationId : String) {rest : RuntimeStatus × ClientWaitOutcome → Py A}
    {post : Except Exc A → Board × Answers → Prop}
    (later : ∀ poll ended, waited poll = some ended → Fallible.wp heardMachine (rest ended) (fun _ => post)
      (board, { answers with polled := some poll }))
    (raised : ∀ exc, exc.isRuntimeError = false → waited (.error exc) = none →
      post (.error exc) (board, { answers with polled := some (.error exc) })) :
    Fallible.wp heardMachine
      (AegraBackend.waitForRun endpoint submission.threadId invocationId submission.timeout >>= rest)
      (fun _ => post) (board, answers) := by
  rw [Fallible.wp_bind, AegraBackend.waitForRun, Fallible.wp_bind]
  apply watched_call heard_free
  intro poll _
  rw [Fallible.after_ok]
  cases poll with
  | error exc =>
      cases kind : exc.isRuntimeError with
      | true =>
          simp only [kind, if_true]
          exact later _ _ (by simp [waited, kind])
      | false =>
          simp only [kind, Bool.false_eq_true, if_false]
          exact raised exc kind (by simp [waited, kind])
  | ok raw =>
      dsimp only
      split
      · rename_i waiting
        exact later _ _ (by simp [waited, waiting])
      · rename_i ended
        exact later _ _ (by simp [waited, ended])

/-- The backend ends a resume as the verdict says. -/
theorem resume_heard (named : submission.Named) (endpoint : String) (described : Described)
    (fresh : answers.submitted = none ∧ answers.polled = none) :
    Fallible.wp heardMachine (AegraBackend.resume endpoint submission.deployment submission.threadId
      described.assistant (.obj [(submission.interruptId, submission.responseValue)]) submission.timeout)
      (fun _ outcome state => ∃ submitted polled,
        state.2 = { answers with submitted := submitted, polled := polled } ∧ Apart [.continuity] board state.1 ∧
        resumeVerdict submission board described submitted polled =
          match outcome with
          | .ok result => .resumed ⟨described, (board .pending).find? (pairOf submission), result⟩
          | .error exc => if exc.isRuntimeError then .ambiguous else .silent) (board, answers) := by
  have same : answers = { answers with submitted := none, polled := none } := by
    cases answers
    simp_all
  have still : Apart [.continuity] board board := fun _ _ => rfl
  unfold AegraBackend.resume
  rw [named.threadId]
  simp only [Bool.false_eq_true, if_false]
  split
  · rename_i nameless
    refine ⟨none, none, same, still, ?_⟩
    simp [resumeVerdict, nameless, Exc.isRuntimeError]
  rename_i named_
  have assistant : blank described.assistant = false := Bool.eq_false_of_not_eq_true named_
  rw [Fallible.wp_bind]
  apply watched_call heard_free
  intro answer _
  rw [Fallible.after_ok, Fallible.wp_bind, Fallible.wp_ofExcept]
  cases answer with
  | error exc =>
      refine ⟨some (.error exc), none, ?_, still, ?_⟩
      · rw [same]
        rfl
      · simp [resumeVerdict, assistant]
  | ok invocationId =>
      rw [Fallible.after_ok]
      apply waitForRun_heard
      · intro poll ended known
        apply Fallible.wp_mono (joinThread_heard named described.assistant invocationId ended)
        rintro _ outcome state ⟨heard, apart, returned⟩
        refine ⟨some (.ok invocationId), some poll, heard, apart, ?_⟩
        rcases returned with ⟨data, decoded, present, rfl⟩ | ⟨exc, kind, rfl, why⟩
        · simp [resumeVerdict, assistant, known, decoded, present]
        · rcases why with absent | failed
          · cases decoded : decode .continuity (board .continuity) <;>
              simp [resumeVerdict, assistant, known, decoded, absent, kind]
          · simp [resumeVerdict, assistant, known, failed, kind]
      · intro exc kind known
        refine ⟨some (.ok invocationId), some (.error exc), rfl, still, ?_⟩
        simp [resumeVerdict, assistant, known, kind]

/-- A later file of outcomes stays as it was beside the ears. -/
theorem outcomeIn_of_still {before after : Board} (same : ∀ store ∈ heardLens.stores, after store = before store)
    (slot : Slot) : outcomeIn after slot = outcomeIn before slot := by
  rw [outcomeIn, outcomeIn, same .responseDedupe (by simp [heardLens])]

/-- An accepted resume closes its clock and concludes. -/
theorem concludeResume_heard (named : submission.Named) (resumption : Resumption) {data : Dict Pair PendingEntry}
    (decoded : decode .pending (board .pending) = .ok data) (assistant : blank resumption.described.assistant = false)
    (invocation : blank resumption.result.invocationId = false) :
    Fallible.wp heardMachine (do
      closeClock submission
      afterResume submission resumption.described.assistant resumption.subject resumption.cascadeDepth
        resumption.result : Py Answered) (fun trace outcome state => state.2 = answers ∧
        outcomeIn state.1 submission.slot = outcomeIn board submission.slot ∧
        Follows submission board trace (.resumed resumption) outcome state.1) (board, answers) := by
  have disjoint : ∀ area ∈ [Area.store .expiry], area ∉ heardLens.areas := by decide
  apply Fallible.wp_seq (heardLens.wp_beside (closeClock_inside submission) disjoint closeClock_ends answers)
  · rintro earlier _ ⟨middle, heard⟩ ⟨ended, rfl, same⟩
    obtain ⟨clocks, readable, _, others⟩ | ⟨_, _, clash, _⟩ := ended
    · have kept : middle .pending = board .pending := others .pending (by decide)
      have decoded_ : decode .pending (middle .pending) = .ok data := by rw [kept, decoded]
      have concludes := afterResume_ends named decoded_ assistant invocation
      apply Fallible.wp_mono (heardLens.wp_beside (afterResume_within _ _ _ _ _) (by decide) concludes heard)
      rintro trace outcome ⟨after, _⟩ ⟨concluded, rfl, same_⟩
      refine ⟨rfl, (outcomeIn_of_still same_ _).trans (outcomeIn_of_still same _), ?_⟩
      exact .concluded kept ⟨clocks, readable⟩ (concluded.later earlier)
    · cases clash
  · rintro _ exc ⟨after, heard⟩ ⟨ended, rfl, same⟩
    obtain ⟨_, _, clash, _⟩ | ⟨clock, failed, _, stays⟩ := ended
    · cases clash
    · have kept : after = board := stays
      exact ⟨rfl, outcomeIn_of_still same _, .timeless (by rw [kept]) ⟨clock, failed⟩⟩

/-- The outcome is recorded, and then the claimed submission returns. -/
theorem recordReturn_heard (claimed : Claimed submission board) (outcome : ResponseOutcome) (answered : Answered) :
    Fallible.wp heardMachine (do
      ApprovalInbox.recordOutcome submission outcome
      pure answered : Py Answered) (fun _ returned state => returned = .ok answered ∧ state.2 = answers ∧
        outcomeIn state.1 submission.slot = some outcome ∧ Apart [.responseDedupe] board state.1) (board, answers) := by
  apply Fallible.wp_seq (recordOutcome_heard claimed outcome)
  · rintro _ _ state ⟨_, heard, recorded, apart⟩
    exact ⟨rfl, heard, recorded, apart⟩
  · rintro _ _ _ ⟨clash, _⟩
    cases clash

/-- A resumed Thread is accounted for by its result. -/
theorem resumed_of_verdict {described : Described} {submitted polled : Option (Except Exc String)}
    {resumption : Resumption}
    (resumed : resumeVerdict submission board described submitted polled = .resumed resumption) :
    blank resumption.described.assistant = false ∧ blank resumption.result.invocationId = false ∧
      resumption.described = described ∧ resumption.entry = (board .pending).find? (pairOf submission) := by
  unfold resumeVerdict at resumed
  split at resumed
  · cases resumed
  rename_i named
  split at resumed
  · cases resumed
  · split at resumed <;> cases resumed
  · split at resumed
    · split at resumed
      · cases resumed
      · rename_i present
        obtain rfl := Verdict.resumed.inj resumed
        exact ⟨Bool.eq_false_of_not_eq_true named, Bool.eq_false_of_not_eq_true present, rfl, rfl⟩
    · cases resumed

/-- An accepted resume records its outcome before it concludes. -/
theorem acceptResume_heard (claimed : Claimed submission board) (resumption : Resumption) {data : Dict Pair PendingEntry}
    (decoded : decode .pending (board .pending) = .ok data) (assistant : blank resumption.described.assistant = false)
    (invocation : blank resumption.result.invocationId = false) :
    Fallible.wp heardMachine (do
      note (.learned submission.deployment submission.threadId resumption.result.invocationId
        (learnedResult resumption.result))
      ApprovalInbox.recordOutcome submission .resumed
      closeClock submission
      afterResume submission resumption.described.assistant resumption.subject resumption.cascadeDepth
        resumption.result : Py Answered) (fun trace outcome state => state.2 = answers ∧
        outcomeIn state.1 submission.slot = some .resumed ∧
        Follows submission board trace (.resumed resumption) outcome state.1) (board, answers) := by
  rw [Fallible.wp_bind]
  apply watched_note heard_free
  intro _
  rw [Fallible.after_ok]
  apply Fallible.wp_seq (recordOutcome_heard claimed .resumed)
  · rintro earlier _ ⟨middle, heard⟩ ⟨_, unchanged, recorded, others⟩
    obtain rfl : answers = heard := unchanged.symm
    have kept : middle .pending = board .pending := others .pending (by decide)
    have entries : decode .pending (middle .pending) = .ok data := by rw [kept, decoded]
    apply Fallible.wp_mono (concludeResume_heard claimed.named resumption entries assistant invocation)
    rintro trace outcome ⟨after, _⟩ ⟨rfl, same, follows⟩
    refine ⟨rfl, same.trans recorded, Follows.later (Follows.later (follows.transfer kept ?_) earlier) _⟩
    exact others .expiry (by decide)
  · rintro _ _ _ ⟨clash, _⟩
    cases clash

/-- An authorized submission ends as the verdict says. -/
theorem resumeAuthorized_heard (claimed : Claimed submission board) (endpoint : String) (described : Described)
    (fresh : answers.submitted = none ∧ answers.polled = none) :
    Fallible.wp heardMachine (resumeAuthorized submission endpoint described) (fun trace outcome state =>
      ∃ submitted polled, state.2 = { answers with submitted := submitted, polled := polled } ∧
        outcomeIn state.1 submission.slot = (acceptedVerdict submission board described submitted polled).outcome ∧
        Follows submission board trace (acceptedVerdict submission board described submitted polled) outcome state.1)
      (board, answers) := by
  have same : answers = { answers with submitted := none, polled := none } := by
    cases answers
    simp_all
  have looked : Fallible.wp boardMachine (PendingCompletions.getPending submission.deployment submission.threadId)
      (fun _ outcome after => after = board ∧
        ((∃ data, decode .pending (board .pending) = .ok data ∧ outcome = .ok (data.get? (pairOf submission))) ∨
          ∃ exc failed, outcome = .error exc ∧ decode .pending (board .pending) = .error failed)) board := by
    apply PendingCompletions.getPending_ends
    · exact fun data decoded => ⟨rfl, .inl ⟨data, decoded, rfl⟩⟩
    · intro exc why
      rcases why with nameless | failed
      · rw [pair_checked claimed.named] at nameless
        cases nameless
      · exact ⟨rfl, .inr ⟨exc, exc, rfl, failed⟩⟩
  apply Fallible.wp_seq (heardLens.wp_beside (PendingCompletions.getPending_inside _ _) (by decide) looked answers)
  · rintro first pending ⟨after, heard⟩ ⟨⟨kept, found⟩, unchanged, _⟩
    obtain rfl : board = after := kept.symm
    obtain rfl : answers = heard := unchanged.symm
    obtain ⟨data, decoded, returned⟩ | ⟨_, _, clash, _⟩ := found
    · have entry : pending = (board .pending).find? (pairOf submission) :=
        (Except.ok.inj returned).trans (PendingCompletions.find?_of_decode decoded _).symm
      dsimp only
      rw [Fallible.wp_bind]
      apply watched_note heard_free
      intro _
      rw [Fallible.after_ok]
      apply Fallible.wp_caught (resume_heard claimed.named endpoint described fresh)
      rintro second answer ⟨middle, heard⟩ ⟨submitted, polled, rfl, apart, resumed⟩
      have claims : Claimed submission middle := claimed.stays (apart .responseDedupe (by decide))
      have accepted : acceptedVerdict submission board described submitted polled =
          resumeVerdict submission board described submitted polled := by simp [acceptedVerdict, decoded]
      rw [← accepted] at resumed
      cases answer with
      | error exc =>
          dsimp only at resumed ⊢
          split
          · rename_i ambiguous
            rw [if_pos ambiguous] at resumed
            apply Fallible.wp_mono (recordReturn_heard claims .unknown _)
            rintro _ outcome ⟨after, _⟩ ⟨rfl, rfl, recorded, others⟩
            refine ⟨submitted, polled, rfl, ?_⟩
            rw [resumed]
            refine ⟨recorded, .ambiguous ?_⟩
            exact (others .pending (by decide)).trans (apart .pending (by decide))
          · rename_i raised
            rw [if_neg raised] at resumed
            refine ⟨submitted, polled, rfl, ?_⟩
            rw [resumed]
            exact ⟨claims.outcomeIn, .silent (apart .pending (by decide))⟩
      | ok result =>
          dsimp only at resumed ⊢
          have sound := resumed_of_verdict (accepted.symm.trans resumed)
          have entries : decode .pending (middle .pending) = .ok data := by
            rw [show middle .pending = board .pending from apart .pending (by decide), decoded]
          rw [entry]
          apply Fallible.wp_mono (acceptResume_heard claims ⟨described, (board .pending).find? (pairOf submission), result⟩
            entries sound.1 sound.2.1)
          rintro third outcome ⟨after, _⟩ ⟨rfl, recorded, follows⟩
          refine ⟨submitted, polled, rfl, ?_⟩
          rw [resumed]
          refine ⟨recorded, ?_⟩
          apply Follows.later
          apply Follows.later
          apply Follows.later
          exact follows.transfer (apart .pending (by decide)) (apart .expiry (by decide))
    · cases clash
  · rintro _ exc ⟨after, heard⟩ ⟨⟨kept, found⟩, rfl, _⟩
    obtain ⟨_, _, clash⟩ | ⟨_, failed, _, unreadable⟩ := found
    · cases clash
    · have still : after = board := kept
      refine ⟨none, none, same, ?_, ?_⟩
      · rw [still, claimed.outcomeIn]
        simp [acceptedVerdict, unreadable, Verdict.outcome]
      · simp only [acceptedVerdict, unreadable]
        exact .silent (by rw [still])

/-- The boundary decides on the state that was read. -/
theorem authorizeState_heard (claimed : Claimed submission board) (endpoint : String) (state : Json) :
    Fallible.wp heardMachine (authorizeState submission EntityAuth.opaqueBoundary endpoint state)
      (fun trace outcome after => after.2.claimed = true ∧ Heard submission board trace outcome after)
      (board, ⟨true, some (.ok state), none, none, none, none⟩) := by
  rw [authorizeState, Fallible.wp_bind, Fallible.wp_ofExcept]
  cases read : readPending state submission.interruptId with
  | error exc =>
      have silent : verdict submission board ⟨true, some (.ok state), none, none, none, none⟩ = .silent := by
        simp [verdict, read]
      refine ⟨rfl, ?_⟩
      simp only [Heard, silent]
      exact ⟨claimed.outcomeIn, .silent rfl⟩
  | ok facts =>
      rw [Fallible.after_ok]
      apply Fallible.wp_seq (describePending_heard endpoint facts.stillPending rfl)
      · rintro earlier described _ ⟨description, known, rfl⟩
        have decides (answers : Answers) (asked : answers.state = some (.ok state))
            (heard : answers.description = description) :
            verdict submission board answers = decidedVerdict submission board answers described := by
          simp [verdict, asked, heard, read, ← known, Except.toOption]
        rw [Fallible.wp_bind, EntityAuth.opaqueBoundary]
        dsimp only
        rw [Fallible.wp_bind]
        apply watched_call heard_free
        intro answer _
        rw [Fallible.after_ok, Fallible.wp_ofExcept]
        cases answer with
        | error exc =>
            refine ⟨rfl, ?_⟩
            rw [Heard, decides _ rfl rfl]
            exact ⟨claimed.outcomeIn, .silent rfl⟩
        | ok decision =>
            rw [Fallible.after_ok]
            cases granted : decision.accepted with
            | false =>
                apply Fallible.wp_mono (recordReturn_heard claimed .rejected _)
                rintro _ outcome ⟨after, _⟩ ⟨rfl, rfl, recorded, others⟩
                refine ⟨rfl, ?_⟩
                rw [Heard, decides _ rfl rfl]
                simp only [decidedVerdict, Answers.next, granted, Bool.false_eq_true, if_false]
                exact ⟨recorded, .rejected (others .pending (by decide))⟩
            | true =>
                apply Fallible.wp_mono (resumeAuthorized_heard claimed endpoint described ⟨rfl, rfl⟩)
                rintro _ outcome ⟨after, _⟩ ⟨submitted, polled, rfl, recorded, follows⟩
                refine ⟨rfl, ?_⟩
                rw [Heard, decides _ rfl rfl]
                simp only [decidedVerdict, Answers.next, granted, if_true]
                exact ⟨recorded, (follows.later _).later earlier⟩
      · rintro _ exc _ ⟨description, known, rfl⟩
        have silent : verdict submission board ⟨true, some (.ok state), description, none, none, none⟩ = .silent := by
          simp [verdict, read, ← known, Except.toOption]
        refine ⟨rfl, ?_⟩
        simp only [Heard, silent]
        exact ⟨claimed.outcomeIn, .silent rfl⟩

/-- The texts of a claim name its submission. -/
theorem named_of_slot (checked : checkTexts .responseDedupe [("deployment alias", submission.deployment),
    ("thread ID", submission.threadId), ("interrupt ID", submission.interruptId)] = .ok ()) : submission.Named where
  deployment := checkTexts_ok checked ("deployment alias", submission.deployment) (by simp)
  threadId := checkTexts_ok checked ("thread ID", submission.threadId) (by simp)
  interruptId := checkTexts_ok checked ("interrupt ID", submission.interruptId) (by simp)

/-- A claim is granted, refused, or never decided. -/
theorem claim_heard : Fallible.wp heardMachine
    (ResponseDedupe.claim submission.deployment submission.threadId submission.interruptId submission.now)
    (fun _ outcome state => Apart [.responseDedupe] board state.1 ∧
      ((∃ exc, outcome = .error exc ∧ state.2 = unheard) ∨ (outcome = .ok false ∧ state.2 = unheard) ∨
        (outcome = .ok true ∧ state.2 = { unheard with claimed := true } ∧ Claimed submission state.1)))
    (board, unheard) := by
  have still : Apart [.responseDedupe] board board := fun _ _ => rfl
  rw [ResponseDedupe.claim, Fallible.wp_bind, wp_key]
  cases checked : checkTexts .responseDedupe [("deployment alias", submission.deployment),
      ("thread ID", submission.threadId), ("interrupt ID", submission.interruptId)] with
  | error exc => exact ⟨still, .inl ⟨exc, rfl, rfl⟩⟩
  | ok _ =>
      simp only [Except.map, Fallible.after_ok]
      have inside : Fallible.wp heardMachine (locked .responseDedupe do
          let data ← loadResponseDedupe
          if (data.get? (submission.deployment, submission.threadId, submission.interruptId)).isSome then
            pure false
          else
            writeAtomic .responseDedupe (data.set (submission.deployment, submission.threadId, submission.interruptId)
              ⟨submission.now, none, none⟩)
            pure true) (fun _ outcome state => state.2 = unheard ∧ Apart [.responseDedupe] board state.1 ∧
              (outcome = .ok true → Claimed submission state.1)) (board, unheard) := by
        apply watched_locked heard_free (fun _ => rfl) fun _ => rfl
        rw [Fallible.wp_bind]
        apply watched_load heard_free
        intro _
        cases decoded : decode .responseDedupe (board .responseDedupe) with
        | error exc => exact ⟨rfl, still, fun clash => by cases clash⟩
        | ok data =>
            rw [Fallible.after_ok, Fallible.wp_ite]
            split
            · exact ⟨rfl, still, fun clash => by cases clash⟩
            · rw [Fallible.wp_bind]
              apply watched_write heard_free
              intro _
              refine ⟨rfl, ?_, ?_⟩
              · exact fun other different => board.put_of_ne (by simpa using different) _
              · intro _
                refine ⟨named_of_slot checked, _, Board.put_self board .responseDedupe _, ?_⟩
                rw [ResponseDedupe.get?_sorted]
                exact Dict.get?_set_self _ _ _
      apply Fallible.wp_seq inside
      · rintro _ granted ⟨after, heard⟩ ⟨fresh, apart, claims⟩
        obtain rfl : unheard = heard := fresh.symm
        rw [Fallible.wp_bind]
        apply watched_note heard_free
        intro _
        refine ⟨apart, ?_⟩
        cases granted with
        | false => exact .inr (.inl ⟨rfl, rfl⟩)
        | true => exact .inr (.inr ⟨rfl, rfl, claims rfl⟩)
      · rintro _ exc ⟨after, heard⟩ ⟨fresh, apart, _⟩
        exact ⟨apart, .inl ⟨exc, rfl, fresh⟩⟩

/-- The verdict depends on the entries and on the Threads alone. -/
theorem verdict_congr {other : Board} (entries : other .pending = board .pending)
    (threads : other .continuity = board .continuity) (answers : Answers) :
    verdict submission other answers = verdict submission board answers := by
  unfold verdict decidedVerdict acceptedVerdict resumeVerdict descriptionOf resultOf
  rw [entries, threads]

/-- A claimed submission ends as its answers say, and every other one is turned away. -/
theorem submitClaimed_heard (board : Board) (endpoint : String) : Fallible.wp heardMachine
    (submitClaimed submission EntityAuth.opaqueBoundary endpoint) (fun trace outcome state =>
      (state.2.claimed = false ∧ TurnedAway board outcome state.1) ∨
      (state.2.claimed = true ∧ submission.Named ∧ Heard submission board trace outcome state)) (board, unheard) := by
  unfold submitClaimed
  apply Fallible.wp_seq claim_heard
  · rintro earlier granted ⟨middle, heard⟩ ⟨apart, ⟨_, clash, _⟩ | ⟨same, rfl⟩ | ⟨same, rfl, claims⟩⟩
    · cases clash
    · obtain rfl := Except.ok.inj same
      exact .inl ⟨rfl, apart .pending (by decide), .inr ⟨_, rfl⟩⟩
    · obtain rfl := Except.ok.inj same
      have entries : middle .pending = board .pending := apart .pending (by decide)
      have clocks : middle .expiry = board .expiry := apart .expiry (by decide)
      have threads : middle .continuity = board .continuity := apart .continuity (by decide)
      have decides (answers : Answers) : verdict submission middle answers = verdict submission board answers :=
        verdict_congr entries threads answers
      have read : Fallible.wp heardMachine (AegraBackend.getState endpoint submission.threadId) (fun _ outcome state =>
          state = (middle, ⟨true, some outcome, none, none, none, none⟩)) (middle, { unheard with claimed := true }) := by
        rw [AegraBackend.getState, Fallible.wp_bind]
        apply watched_call heard_free
        intro answer _
        rw [Fallible.after_ok, Fallible.wp_ofExcept]
        rfl
      apply Fallible.wp_caught read
      rintro second answer _ rfl
      cases answer with
      | error exc =>
          dsimp only
          split
          · rename_i unreadable
            apply Fallible.wp_mono (recordReturn_heard claims .unknown _)
            rintro _ outcome ⟨after, _⟩ ⟨rfl, rfl, recorded, others⟩
            refine .inr ⟨rfl, claims.named, ?_⟩
            have ended : verdict submission board ⟨true, some (.error exc), none, none, none, none⟩ = .unreadable := by
              simp [verdict, unreadable]
            rw [Heard, ended]
            exact ⟨recorded, .unreadable ((others .pending (by decide)).trans entries)⟩
          · rename_i raised
            refine .inr ⟨rfl, claims.named, ?_⟩
            have ended : verdict submission board ⟨true, some (.error exc), none, none, none, none⟩ = .silent := by
              simp [verdict, raised]
            rw [Heard, ended]
            exact ⟨claims.outcomeIn, .silent entries⟩
      | ok state =>
          apply Fallible.wp_mono (authorizeState_heard claims endpoint state)
          rintro trace outcome ⟨after, heard⟩ ⟨claimed, recorded, follows⟩
          rw [decides] at recorded follows
          refine .inr ⟨claimed, claims.named, recorded, ?_⟩
          exact ((follows.transfer entries clocks).later second).later earlier
  · rintro _ exc ⟨after, heard⟩ ⟨apart, ⟨_, _, rfl⟩ | ⟨clash, _⟩ | ⟨clash, _⟩⟩
    · exact .inl ⟨rfl, apart .pending (by decide), .inl ⟨exc, rfl⟩⟩
    · cases clash
    · cases clash

end

end Cordboard.Hearing
