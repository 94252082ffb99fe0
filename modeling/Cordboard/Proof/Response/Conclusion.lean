import Cordboard.Proof.Records
import Cordboard.Proof.Response.Favour

namespace Cordboard.Hearing
open Data Effects ApprovalInbox Router
open PendingCompletions (Pair recordTexts)
open ApprovalExpiry (clockOf)

/-- The resume of a Thread that the backend has accepted. -/
structure Resumption where
  described : Described
  entry : Option PendingEntry
  result : ExecutionResult

/-- The Subject comes from the description, or from the tracked entry. -/
def Resumption.subject (resumption : Resumption) : Option String := subjectOf resumption.described resumption.entry

def Resumption.cascadeDepth (resumption : Resumption) : Nat :=
  (resumption.entry.map PendingEntry.cascadeDepth).getD 0

/-- The pair of a submission. -/
def pairOf (submission : Submission) : Pair := (submission.deployment, submission.threadId)

/-- This entry tracks the resumed Thread. -/
def trackedAs (submission : Submission) (resumption : Resumption) (held : Bool) : PendingEntry :=
  ⟨submission.deployment, submission.threadId, resumption.result.invocationId, resumption.described.assistant,
    resumption.subject.getD "", resumption.cascadeDepth, false, held, submission.now⟩

/-- The completion of the resumed Run, under the Subject. -/
def finishedAs (submission : Submission) (resumption : Resumption) (subject : String) : FinishedRun :=
  ⟨resumption.result.logicalRunId, subject, submission.deployment, resumption.described.assistant, "success",
    resumption.cascadeDepth⟩

/-- The cascade that a submission routes has raised the exception. -/
def CascadeRaised (submission : Submission) (trace : List signature.Event) (exc : Exc) : Prop :=
  ∃ before cascade later start run final, trace = before ++ cascade ++ later ∧
    Runs boardMachine (routeSignal (.finished run) submission.timeout submission.now).toProgram start cascade
      (.error exc) final

/-- A trace with an earlier part contains the same cascade. -/
theorem CascadeRaised.later {submission : Submission} {trace : List signature.Event} {exc : Exc}
    (raised : CascadeRaised submission trace exc) (earlier : List signature.Event) :
    CascadeRaised submission (earlier ++ trace) exc := by
  obtain ⟨before, cascade, tail, start, finished, final, rfl, run⟩ := raised
  exact ⟨earlier ++ before, cascade, tail, start, finished, final, by simp, run⟩

/-- A trace with a later part contains the same cascade. -/
theorem CascadeRaised.earlier {submission : Submission} {trace : List signature.Event} {exc : Exc}
    (raised : CascadeRaised submission trace exc) (later : List signature.Event) :
    CascadeRaised submission (trace ++ later) exc := by
  obtain ⟨before, cascade, tail, start, finished, final, rfl, run⟩ := raised
  exact ⟨before, cascade, tail ++ later, start, finished, final, by simp, run⟩

/-- The completion of the Run would have a blank text. -/
def Resumption.Nameless (resumption : Resumption) : Prop :=
  ∃ text, resumption.subject = some text ∧ text ≠ "" ∧
    (blank text = true ∨ blank resumption.result.logicalRunId = true)

/-- An accepted resume ends in one of these ways. -/
inductive Concludes (submission : Submission) (board : Board) (trace : List signature.Event) (resumption : Resumption) :
    Except Exc Answered → Board → Prop
  | refused {exc : Exc} {after : Board} (learned : learnedResult resumption.result = .succeeded)
      (nameless : resumption.Nameless) : Concludes submission board trace resumption (.error exc) after
  | raised {exc : Exc} {after : Board} (learned : learnedResult resumption.result = .succeeded)
      (cascade : CascadeRaised submission trace exc) : Concludes submission board trace resumption (.error exc) after
  | finished {after : Board} (learned : learnedResult resumption.result = .succeeded) (named : ¬ resumption.Nameless) :
      Concludes submission board trace resumption (.ok ⟨.ok ⟨.resumed, none⟩, false⟩) after
  | unpaused {exc : Exc} (learned : learnedResult resumption.result = .interrupted)
      (nameless : blank (resumption.subject.getD "") = true) :
      Concludes submission board trace resumption (.error exc) board
  | paused {after : Board} (learned : learnedResult resumption.result = .interrupted)
      (named : blank (resumption.subject.getD "") = false)
      (tracked : (after .pending).find? (pairOf submission) = some (trackedAs submission resumption false)) :
      Concludes submission board trace resumption (.ok ⟨.ok ⟨.resumed, none⟩, false⟩) after
  | lost {exc : Exc} (learned : learnedResult resumption.result = .active)
      (nameless : blank (resumption.subject.getD "") = true) :
      Concludes submission board trace resumption (.ok ⟨.error exc, true⟩) board
  | running {after : Board} (learned : learnedResult resumption.result = .active)
      (named : blank (resumption.subject.getD "") = false)
      (tracked : (after .pending).find? (pairOf submission) = some (trackedAs submission resumption true)) :
      Concludes submission board trace resumption (.ok ⟨.ok ⟨.resumed, none⟩, true⟩) after
  | unobserved (learned : learnedResult resumption.result = .transportFailure) :
      Concludes submission board trace resumption (.ok ⟨.ok ⟨.resumed, none⟩, true⟩) board
  | terminated (learned : learnedResult resumption.result = .terminated) :
      Concludes submission board trace resumption (.ok ⟨.ok ⟨.resumed, none⟩, false⟩) board

/-- A trace with an earlier part has the same conclusion. -/
theorem Concludes.later {submission : Submission} {board after : Board} {trace : List signature.Event}
    {resumption : Resumption} {outcome : Except Exc Answered}
    (concludes : Concludes submission board trace resumption outcome after) (earlier : List signature.Event) :
    Concludes submission board (earlier ++ trace) resumption outcome after := by
  cases concludes with
  | refused learned nameless => exact .refused learned nameless
  | raised learned cascade => exact .raised learned (cascade.later earlier)
  | finished learned named => exact .finished learned named
  | unpaused learned nameless => exact .unpaused learned nameless
  | paused learned named tracked => exact .paused learned named tracked
  | lost learned nameless => exact .lost learned nameless
  | running learned named tracked => exact .running learned named tracked
  | unobserved learned => exact .unobserved learned
  | terminated learned => exact .terminated learned

/-- A trace with a later part has the same conclusion. -/
theorem Concludes.earlier {submission : Submission} {board after : Board} {trace : List signature.Event}
    {resumption : Resumption} {outcome : Except Exc Answered}
    (concludes : Concludes submission board trace resumption outcome after) (later : List signature.Event) :
    Concludes submission board (trace ++ later) resumption outcome after := by
  cases concludes with
  | refused learned nameless => exact .refused learned nameless
  | raised learned cascade => exact .raised learned (cascade.earlier later)
  | finished learned named => exact .finished learned named
  | unpaused learned nameless => exact .unpaused learned nameless
  | paused learned named tracked => exact .paused learned named tracked
  | lost learned nameless => exact .lost learned nameless
  | running learned named tracked => exact .running learned named tracked
  | unobserved learned => exact .unobserved learned
  | terminated learned => exact .terminated learned

section
variable {submission : Submission} {board : Board} {resumption : Resumption}

/-- The texts of a pair come from the slot. -/
theorem pair_checked (named : submission.Named) :
    PendingCompletions.pairTexts submission.deployment submission.threadId = .ok () := by
  simp [PendingCompletions.pairTexts, checkTexts, named.deployment, named.threadId]

/-- The Subject alone decides the record of a resumed Thread. -/
theorem record_checked (named : submission.Named) (assistant : blank resumption.described.assistant = false)
    (invocation : blank resumption.result.invocationId = false) :
    recordTexts submission.deployment submission.threadId resumption.result.invocationId resumption.described.assistant
        (resumption.subject.getD "") = .ok () ↔ blank (resumption.subject.getD "") = false := by
  cases subject : blank (resumption.subject.getD "") <;>
    simp [recordTexts, checkTexts, named.deployment, named.threadId, assistant, invocation, subject]

/-- The texts alone refuse the Signal of a finished Run. -/
theorem finished_refused (named : submission.Named) (assistant : blank resumption.described.assistant = false)
    (text : String) : (∃ exc, runFinishedSignal (finishedAs submission resumption text) = .error exc) ↔
      blank text = true ∨ blank resumption.result.logicalRunId = true := by
  have success : blank "success" = false := by decide
  cases run : blank resumption.result.logicalRunId <;> cases subject : blank text <;>
    simp [runFinishedSignal, finishedAs, named.deployment, assistant, run, subject, success]

/-- A platform Signal carries the completed Run. -/
theorem signal_of_run {run : FinishedRun} {signal : Signal} (sound : runFinishedSignal run = .ok signal) :
    signal = .finished run := by
  unfold runFinishedSignal at sound
  split at sound
  · cases sound
  · exact (Except.ok.inj sound).symm

/-- The board tracks the resumed Thread, unless its Subject is blank. -/
theorem track_ends (named : submission.Named) {data : Dict Pair PendingEntry}
    (decoded : decode .pending (board .pending) = .ok data) (assistant : blank resumption.described.assistant = false)
    (invocation : blank resumption.result.invocationId = false) (held : Bool) :
    Fallible.wp boardMachine (PendingCompletions.recordPending submission.deployment submission.threadId
      resumption.result.invocationId resumption.described.assistant (resumption.subject.getD "") resumption.cascadeDepth
      false held submission.now) (fun _ outcome after =>
        (∃ exc, outcome = .error exc ∧ blank (resumption.subject.getD "") = true ∧ after = board) ∨
        (outcome = .ok () ∧ blank (resumption.subject.getD "") = false ∧
          (after .pending).find? (pairOf submission) = some (trackedAs submission resumption held))) board := by
  have checked := record_checked named assistant invocation
  apply PendingCompletions.recordPending_ends board (trackedAs submission resumption held)
  · intro stored texts found
    refine .inr ⟨rfl, checked.mp texts, ?_⟩
    rw [PendingCompletions.find?_recorded found]
    exact if_pos rfl
  · intro exc failed
    refine .inl ⟨exc, rfl, ?_, rfl⟩
    rcases failed with texts | unreadable
    · cases subject : blank (resumption.subject.getD "") with
      | true => rfl
      | false =>
          have clash : Except.error exc = Except.ok () := texts.symm.trans (checked.mpr subject)
          cases clash
    · rw [decoded] at unreadable
      cases unreadable

/-- The clock of a resumed Thread closes, unless its file is unreadable. -/
theorem closeClock_ends : Fallible.wp boardMachine (closeClock submission) (fun _ outcome after =>
    (∃ clocks, decode .expiry (board .expiry) = .ok clocks ∧ outcome = .ok () ∧
      ∀ other, other ≠ .expiry → after other = board other) ∨
    ∃ exc, decode .expiry (board .expiry) = .error exc ∧ outcome = .error exc ∧ after = board) board := by
  have disposed : Fallible.wp boardMachine
      (ApprovalExpiry.resolveApproved submission.deployment submission.threadId submission.now) (fun _ outcome after =>
        (∃ clocks, decode .expiry (board .expiry) = .ok clocks ∧
          (∀ exc, outcome = .error exc → exc.kind = .unknownWaitingApproval) ∧
          ∀ other, other ≠ .expiry → after other = board other) ∨
        ∃ exc, decode .expiry (board .expiry) = .error exc ∧ outcome = .error exc ∧ after = board) board := by
    apply ApprovalExpiry.dispose_ends
    · intro exc clocks unknown decoded _
      refine .inl ⟨clocks, decoded, ?_, fun _ _ => rfl⟩
      rintro _ same
      obtain rfl := Except.error.inj same
      exact unknown
    · intro record clocks decoded _ _
      refine .inl ⟨clocks, decoded, ?_, fun _ _ => rfl⟩
      rintro _ same
      cases same
    · intro record clocks after decoded _ _ kept _
      refine .inl ⟨clocks, decoded, ?_, kept⟩
      rintro _ same
      cases same
    · exact fun exc failed => .inr ⟨exc, failed, rfl, rfl⟩
  apply Fallible.wp_caught disposed
  intro _ outcome after ended
  rcases ended with ⟨clocks, decoded, unknown, same⟩ | ⟨exc, failed, rfl, rfl⟩
  · cases outcome with
    | ok record => exact .inl ⟨clocks, decoded, rfl, same⟩
    | error exc =>
        dsimp only
        rw [if_pos (unknown exc rfl)]
        exact .inl ⟨clocks, decoded, rfl, same⟩
  · dsimp only
    have unreadable : exc.kind ≠ .unknownWaitingApproval := by simp [kind_of_decode failed, Store.errorKind]
    rw [if_neg unreadable]
    exact .inr ⟨exc, failed, rfl, rfl⟩

/-- A finished Run routes its completion, and the submission raises only what the cascade raised. -/
theorem routeFinished_ends (finished : FinishedRun) {answered : Answered} {post : List signature.Event → Except Exc Answered → Board → Prop}
    (returned : ∀ trace after, post trace (.ok answered) after)
    (raised : ∀ trace exc after, CascadeRaised submission trace exc → post trace (.error exc) after) :
    Fallible.wp boardMachine (routeSignal (.finished finished) submission.timeout submission.now >>= fun _ =>
      pure answered) post board := by
  have cascade : Fallible.wp boardMachine (routeSignal (.finished finished) submission.timeout submission.now)
      (fun trace outcome _ => ∀ exc, outcome = .error exc → CascadeRaised submission trace exc) board := by
    apply Program.wp_of_runs fun _ _ => trivial
    rintro trace outcome final run exc rfl
    exact ⟨[], trace, [], board, finished, final, by simp, run⟩
  apply Fallible.wp_seq cascade
  · intro before _ after _
    rw [Fallible.wp_pure]
    exact returned _ after
  · intro before exc after known
    exact raised before exc after (known exc rfl)

/-- The last part of a submission concludes an accepted resume. -/
theorem afterResume_ends (named : submission.Named) {data : Dict Pair PendingEntry}
    (decoded : decode .pending (board .pending) = .ok data) (assistant : blank resumption.described.assistant = false)
    (invocation : blank resumption.result.invocationId = false) :
    Fallible.wp boardMachine (afterResume submission resumption.described.assistant resumption.subject
      resumption.cascadeDepth resumption.result)
      (fun trace outcome after => Concludes submission board trace resumption outcome after) board := by
  unfold afterResume
  dsimp only
  rw [Fallible.wp_ite]
  split
  · rename_i succeeded
    have learned : learnedResult resumption.result = .succeeded := by simp [learnedResult, succeeded]
    have resolved : Fallible.wp boardMachine
        (PendingCompletions.resolvePending submission.deployment submission.threadId)
        (fun _ outcome _ => ∃ value, outcome = .ok value) board := by
      apply PendingCompletions.resolvePending_ends
      · exact fun _ _ _ _ => ⟨none, rfl⟩
      · exact fun _ entry _ _ _ => ⟨some entry, rfl⟩
      · rintro exc (unnamed | unreadable)
        · rw [pair_checked named] at unnamed
          cases unnamed
        · rw [decoded] at unreadable
          cases unreadable
    apply Fallible.wp_seq resolved
    · intro earlier _ after _
      cases subject : resumption.subject with
      | none => exact .finished learned (by simp [Resumption.Nameless, subject])
      | some text =>
          dsimp only
          rw [Fallible.wp_ite]
          split
          · rename_i present
            have routed : Fallible.wp boardMachine
                (Fallible.ofExcept (runFinishedSignal (finishedAs submission resumption text)) >>= fun finished =>
                  routeSignal finished submission.timeout submission.now >>= fun _ =>
                    pure ⟨.ok ⟨.resumed, none⟩, false⟩)
                (fun trace outcome final => Concludes submission board (earlier ++ trace) resumption outcome final)
                after := by
              have refused : (∃ exc, runFinishedSignal (finishedAs submission resumption text) = .error exc) ↔
                  blank text = true ∨ blank resumption.result.logicalRunId = true :=
                finished_refused named assistant text
              rw [Fallible.wp_bind, Fallible.wp_ofExcept]
              cases signal : runFinishedSignal (finishedAs submission resumption text) with
              | error exc => exact .refused learned ⟨text, subject, present.1, refused.mp ⟨exc, signal⟩⟩
              | ok finished =>
                  obtain rfl := signal_of_run signal
                  apply routeFinished_ends
                  · intro trace final
                    apply Concludes.finished learned
                    rintro ⟨other, known, _, nameless⟩
                    obtain rfl : text = other := Option.some.inj (subject.symm.trans known)
                    obtain ⟨exc, failed⟩ := refused.mpr nameless
                    rw [signal] at failed
                    cases failed
                  · exact fun trace exc final raised => .raised learned (raised.later earlier)
            exact routed
          · rename_i absent
            apply Concludes.finished learned
            rintro ⟨other, known, visible, _⟩
            obtain rfl : text = other := Option.some.inj (subject.symm.trans known)
            exact absent ⟨visible, fun empty => by simp [empty, blank] at assistant⟩
    · rintro _ exc _ ⟨value, same⟩
      cases same
  rename_i unsuccessful
  rw [Fallible.wp_ite]
  split
  · rename_i interrupted
    have learned : learnedResult resumption.result = .interrupted := by simp [learnedResult, interrupted]
    apply Fallible.wp_seq (track_ends named decoded assistant invocation false)
    · intro _ _ after tracked
      rcases tracked with ⟨exc, same, _⟩ | ⟨_, subject, tracked⟩
      · cases same
      · exact .paused learned subject tracked
    · intro _ exc after tracked
      rcases tracked with ⟨_, same, nameless, rfl⟩ | ⟨same, _⟩
      · exact .unpaused learned nameless
      · cases same
  rename_i unpaused
  rw [Fallible.wp_ite]
  split
  · rename_i waiting
    have learned : learnedResult resumption.result = .active := by
      unfold learnedResult
      cases status : resumption.result.status <;> simp_all
    apply Fallible.wp_caught (track_ends named decoded assistant invocation true)
    intro _ outcome after tracked
    rcases tracked with ⟨exc, rfl, nameless, rfl⟩ | ⟨rfl, subject, tracked⟩
    · exact .lost learned nameless
    · exact .running learned subject tracked
  rename_i unfinished
  rw [Fallible.wp_ite]
  split
  · rename_i lost
    apply Concludes.unobserved
    unfold learnedResult
    cases status : resumption.result.status <;> simp_all
  · rename_i observed
    apply Concludes.terminated
    unfold learnedResult
    cases status : resumption.result.status <;> cases wait : resumption.result.waitOutcome <;> simp_all

end

end Cordboard.Hearing
