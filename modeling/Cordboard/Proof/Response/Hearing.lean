import Cordboard.Proof.Response.Conclusion
import Cordboard.Proof.Watching

namespace Cordboard.Hearing
open Data Effects ApprovalInbox ResponseDedupe
open PendingCompletions (Pair)
open RunContinuity (recordOf joined)

/-- These are the answers of the backend and of the authority to one submission. -/
structure Answers where
  claimed : Bool
  state : Option (Except Exc Json)
  description : Option (Except Exc RunInfo)
  decision : Option (Except Exc AuthDecision)
  submitted : Option (Except Exc String)
  polled : Option (Except Exc String)

/-- Nothing was heard yet. -/
def unheard : Answers := ⟨false, none, none, none, none, none⟩

/-- Each answer is heard as it comes. -/
def Answers.next (answers : Answers) : (op : Effect) → op.Answer → Answers
  | .note (.responseClaimed _ _ _ granted), _ => { answers with claimed := answers.claimed || granted }
  | .call (.threadState ..), answer => { answers with state := some answer }
  | .call (.describeRun ..), answer => { answers with description := some answer }
  | .call (.authorize ..), answer => { answers with decision := some answer }
  | .call (.submitResume ..), answer => { answers with submitted := some answer }
  | .call (.lastPoll ..), answer => { answers with polled := some answer }
  | _, _ => answers

/-- This watch listens to one submission. -/
abbrev ears : Watch boardMachine where
  Phase := Answers
  next := Answers.next
  meets _ _ _ _ := True
  safe _ _ := True

/-- The runs of one submission, with what it has heard. -/
abbrev heardMachine : Machine signature (Board × Answers) := ears.along

/-- What the run of a trace has heard. -/
def heardIn (trace : List signature.Event) : Answers := ears.after unheard trace

/-- Nothing is asked where a submission stops. -/
theorem heard_free (board : Board) (answers : Answers) : ears.safe board answers := trivial

/-- The ears follow the answers and the response file. -/
def heardLens : Lens ears where
  areas := [.store .responseDedupe, .observation, .inspection, .authority, .transport]
  stores := [.responseDedupe]
  covered := by simp
  neutral := by
    intro answers op answer outside
    cases op with
    | note point =>
        cases point with
        | responseClaimed deployment threadId interruptId granted => exact absurd (by simp [Effect.area, Note.area]) outside
        | _ => rfl
    | call target =>
        cases target with
        | threadState endpoint threadId => exact absurd (by simp [Effect.area, Call.area]) outside
        | describeRun endpoint threadId invocationId => exact absurd (by simp [Effect.area, Call.area]) outside
        | lastPoll endpoint threadId invocationId timeout => exact absurd (by simp [Effect.area, Call.area]) outside
        | submitResume endpoint threadId assistant value => exact absurd (by simp [Effect.area, Call.area]) outside
        | authorize submission revision pending => exact absurd (by simp [Effect.area, Call.area]) outside
        | _ => rfl
    | _ => rfl
  free := heard_free

/-- The answers lead to one of these ends. A silent end raises before any outcome. -/
inductive Verdict where
  | silent
  | unreadable
  | rejected
  | ambiguous
  | resumed (resumption : Resumption)

/-- The outcome that the verdict records. -/
def Verdict.outcome : Verdict → Option ResponseOutcome
  | .silent => none
  | .unreadable => some .unknown
  | .rejected => some .rejected
  | .ambiguous => some .unknown
  | .resumed _ => some .resumed

/-- The latest invocation of the Thread is described, or the Thread is unknown. -/
def descriptionOf (submission : Submission) (board : Board) (description : Option (Except Exc RunInfo))
    (stillPending : Bool) : Option Described :=
  if !stillPending then some ⟨"", none⟩ else
    match decode .continuity (board .continuity), recordOf (board .continuity) (pairOf submission) with
    | .error _, _ => none
    | .ok _, none => some ⟨"", none⟩
    | .ok _, some record =>
        if record.apiRunIds = [] then none else
          match description with
          | some (.ok info) => some ⟨info.assistantId.getD "", info.subject⟩
          | some (.error exc) => if exc.isRuntimeError ∨ exc.kind = .unknownThread then some ⟨"", none⟩ else none
          | none => none

/-- The wait for the Run ends with its last poll. -/
def waited : Except Exc String → Option (RuntimeStatus × ClientWaitOutcome)
  | .error exc => if exc.isRuntimeError then some (.unknown, .transportError) else none
  | .ok raw => some (AegraBackend.rawStatus raw,
      if raw = "pending" ∨ raw = "running" then .deadlineReached else .completed)

/-- The result of a resume whose invocation joins its Thread. -/
def resultOf (submission : Submission) (board : Board) (assistant invocationId : String)
    (ended : RuntimeStatus × ClientWaitOutcome) : ExecutionResult :=
  ⟨(joined (recordOf (board .continuity) (pairOf submission)) invocationId).runId, invocationId, submission.threadId,
    assistant, ended.1, ended.2⟩

/-- The backend resumes the Thread, or its answer is ambiguous, or it raises. -/
def resumeVerdict (submission : Submission) (board : Board) (described : Described)
    (submitted polled : Option (Except Exc String)) : Verdict :=
  if blank described.assistant then .silent else
    match submitted with
    | none => .silent
    | some (.error exc) => if exc.isRuntimeError then .ambiguous else .silent
    | some (.ok invocationId) =>
        match polled.bind waited, decode .continuity (board .continuity) with
        | some ended, .ok _ =>
            if blank invocationId then .silent
            else .resumed ⟨described, (board .pending).find? (pairOf submission),
              resultOf submission board described.assistant invocationId ended⟩
        | _, _ => .silent

/-- An authorized submission needs its tracked entry first. -/
def acceptedVerdict (submission : Submission) (board : Board) (described : Described)
    (submitted polled : Option (Except Exc String)) : Verdict :=
  match decode .pending (board .pending) with
  | .error _ => .silent
  | .ok _ => resumeVerdict submission board described submitted polled

/-- The boundary decides on the described state. -/
def decidedVerdict (submission : Submission) (board : Board) (answers : Answers) (described : Described) : Verdict :=
  match answers.decision with
  | some (.ok decision) =>
      if decision.accepted then acceptedVerdict submission board described answers.submitted answers.polled
      else .rejected
  | _ => .silent

/-- The answers and the board decide the end of a claimed submission. -/
def verdict (submission : Submission) (board : Board) (answers : Answers) : Verdict :=
  match answers.state with
  | none => .silent
  | some (.error exc) => if exc.isRuntimeError then .unreadable else .silent
  | some (.ok state) =>
      match readPending state submission.interruptId with
      | .error _ => .silent
      | .ok facts =>
          match descriptionOf submission board answers.description facts.stillPending with
          | none => .silent
          | some described => decidedVerdict submission board answers described

/-- The outcome that the file has recorded for the slot. -/
def outcomeIn (board : Board) (slot : Slot) : Option ResponseOutcome :=
  ((board .responseDedupe).find? slot).bind ResponseClaim.outcome

/-- The submission has claimed its slot, which has no outcome yet. -/
structure Claimed (submission : Submission) (board : Board) : Prop where
  named : submission.Named
  stored : ∃ data, board .responseDedupe = .content data ∧ data.get? submission.slot = some ⟨submission.now, none, none⟩

/-- A claimed submission ends in one of these ways after its verdict. -/
inductive Follows (submission : Submission) (board : Board) (trace : List signature.Event) :
    Verdict → Except Exc Answered → Board → Prop
  | silent {exc : Exc} {after : Board} (kept : after .pending = board .pending) :
      Follows submission board trace .silent (.error exc) after
  | unreadable {reason : Option String} {after : Board} (kept : after .pending = board .pending) :
      Follows submission board trace .unreadable (.ok ⟨.ok ⟨.unknown, reason⟩, false⟩) after
  | rejected {reason : Option String} {after : Board} (kept : after .pending = board .pending) :
      Follows submission board trace .rejected (.ok ⟨.ok ⟨.rejected, reason⟩, false⟩) after
  | ambiguous {reason : Option String} {after : Board} (kept : after .pending = board .pending) :
      Follows submission board trace .ambiguous (.ok ⟨.ok ⟨.unknown, reason⟩, true⟩) after
  | timeless {resumption : Resumption} {exc : Exc} {after : Board} (kept : after .pending = board .pending)
      (unreadable : ∃ clock, decode .expiry (board .expiry) = .error clock) :
      Follows submission board trace (.resumed resumption) (.error exc) after
  | concluded {resumption : Resumption} {outcome : Except Exc Answered} {middle after : Board}
      (kept : middle .pending = board .pending) (readable : ∃ clocks, decode .expiry (board .expiry) = .ok clocks)
      (concludes : Concludes submission middle trace resumption outcome after) :
      Follows submission board trace (.resumed resumption) outcome after

/-- A trace with an earlier part ends in the same way. -/
theorem Follows.later {submission : Submission} {board after : Board} {trace : List signature.Event} {ended : Verdict}
    {outcome : Except Exc Answered} (follows : Follows submission board trace ended outcome after)
    (earlier : List signature.Event) : Follows submission board (earlier ++ trace) ended outcome after := by
  cases follows with
  | silent kept => exact .silent kept
  | unreadable kept => exact .unreadable kept
  | rejected kept => exact .rejected kept
  | ambiguous kept => exact .ambiguous kept
  | timeless kept unreadable => exact .timeless kept unreadable
  | concluded kept readable concludes => exact .concluded kept readable (concludes.later earlier)

/-- A trace with a later part ends in the same way. -/
theorem Follows.earlier {submission : Submission} {board after : Board} {trace : List signature.Event} {ended : Verdict}
    {outcome : Except Exc Answered} (follows : Follows submission board trace ended outcome after)
    (later : List signature.Event) : Follows submission board (trace ++ later) ended outcome after := by
  cases follows with
  | silent kept => exact .silent kept
  | unreadable kept => exact .unreadable kept
  | rejected kept => exact .rejected kept
  | ambiguous kept => exact .ambiguous kept
  | timeless kept unreadable => exact .timeless kept unreadable
  | concluded kept readable concludes => exact .concluded kept readable (concludes.earlier later)

/-- The end depends on the entries and on the clocks alone. -/
theorem Follows.transfer {submission : Submission} {board other after : Board} {trace : List signature.Event}
    {ended : Verdict} {outcome : Except Exc Answered} (follows : Follows submission other trace ended outcome after)
    (entries : other .pending = board .pending) (clocks : other .expiry = board .expiry) :
    Follows submission board trace ended outcome after := by
  cases follows with
  | silent kept => exact .silent (kept.trans entries)
  | unreadable kept => exact .unreadable (kept.trans entries)
  | rejected kept => exact .rejected (kept.trans entries)
  | ambiguous kept => exact .ambiguous (kept.trans entries)
  | timeless kept unreadable => exact .timeless (kept.trans entries) (clocks ▸ unreadable)
  | concluded kept readable concludes => exact .concluded (kept.trans entries) (clocks ▸ readable) concludes

/-- The boards differ in these files only. -/
def Apart (stores : List Store) (before after : Board) : Prop := ∀ store, store ∉ stores → after store = before store

/-- A claimed slot stays claimed while its file stays. -/
theorem Claimed.stays {submission : Submission} {board after : Board} (claimed : Claimed submission board)
    (same : after .responseDedupe = board .responseDedupe) : Claimed submission after :=
  ⟨claimed.named, by rw [same]; exact claimed.stored⟩

/-- A claimed slot has no outcome. -/
theorem Claimed.outcomeIn {submission : Submission} {board : Board} (claimed : Claimed submission board) :
    outcomeIn board submission.slot = none := by
  obtain ⟨data, stored, present⟩ := claimed.stored
  simp [Hearing.outcomeIn, stored, present]

/-- The submission ends as its answers say. -/
def Heard (submission : Submission) (board : Board) (trace : List signature.Event) (outcome : Except Exc Answered)
    (state : Board × Answers) : Prop :=
  outcomeIn state.1 submission.slot = (verdict submission board state.2).outcome ∧
    Follows submission board trace (verdict submission board state.2) outcome state.1

/-- A submission that was turned away keeps the entries, and its activity claim is dropped. -/
def TurnedAway (board : Board) (outcome : Except Exc Answered) (after : Board) : Prop :=
  after .pending = board .pending ∧ ((∃ exc, outcome = .error exc) ∨ ∃ result, outcome = .ok ⟨.ok result, false⟩)

end Cordboard.Hearing
