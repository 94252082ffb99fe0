import Cordboard.Proof.Response.ResumeOnce

namespace Cordboard.ApprovalInbox
open Data Effects ResponseDedupe
open DeploymentLifecycle (Started ensureStarted verifiedRecord launchDeployment ensureStarted_inside
  releaseActive_inside)

/-- The file decodes to data that passes the test. -/
def decodesTo (store : Store) (file : File store.Data) (test : store.Data → Bool) : Bool :=
  match decode store file with
  | .ok data => test data
  | .error _ => false

/-- The Thread state waits for this interrupt at the revision of the submission. -/
def waitsFor (submission : Submission) (state : Json) : Bool :=
  match readPending state submission.interruptId with
  | .ok facts => facts.stillPending && (Json.ofText submission.revision).pyEq facts.currentRevision
  | .error _ => false

/-- The stores are readable, the Deployment starts, the interrupt is still pending at the submitted revision, and the
authority accepts. -/
def favours (submission : Submission) : (op : Effect) → op.Answer → Bool
  | .read .connections, file => decodesTo .connections file fun data => (data.get? submission.deployment).isSome
  | .read .continuity, file => decodesTo .continuity file fun data =>
      match (data.get? submission.deployment).bind fun threads => threads.get? submission.threadId with
      | some record => !record.apiRunIds.isEmpty
      | none => true
  | .read store, file => decodesTo store file fun _ => true
  | .call (.launch ..), answer => answer.isOk
  | .call (.healthCheck ..), answer => answer
  | .call (.threadState ..), answer =>
      match answer with
      | .ok state => waitsFor submission state
      | .error _ => false
  | .call (.describeRun ..), answer =>
      match answer with
      | .ok _ => true
      | .error exc => exc.isRuntimeError
  | .call (.authorize ..), answer =>
      match answer with
      | .ok decision => decision.accepted
      | .error _ => false
  | .call (.postAuthorize ..), answer =>
      match answer with
      | .ok response => ((EntityAuth.parseDecision response).map AuthDecision.accepted).getD false
      | .error _ => false
  | _, _ => true

/-- The submission names its interrupt. -/
structure Submission.Named (submission : Submission) : Prop where
  deployment : blank submission.deployment = false
  threadId : blank submission.threadId = false
  interruptId : blank submission.interruptId = false

/-- The boundary accepts this operator whenever the authority does. -/
def Accepts (submission : Submission) (boundary : EntityAuthBoundary) : Prop :=
  ∀ assistant currentRevision, (Json.ofText submission.revision).pyEq currentRevision = true →
    ∀ trace outcome, Runs openMachine (boundary.authorize ⟨submission.deployment, assistant, submission.threadId,
        submission.interruptId, submission.approver, submission.responseValue, submission.revision⟩
        currentRevision true).toProgram () trace outcome () →
      (∀ event ∈ trace, favours submission event.1 event.2 = true) →
        ∃ decision, outcome = .ok decision ∧ decision.accepted = true

/-- A call found the slot taken or free at its first read, and it reached `backend.resume` or not. -/
structure Course where
  found : Option Bool
  resumed : Bool

/-- The first read of the response file and the resume move the course. -/
def courseNext (slot : Slot) (course : Course) : (op : Effect) → op.Answer → Course
  | .read .responseDedupe, file => { course with found := course.found.or (some (file.find? slot).isSome) }
  | .note (.resuming deployment threadId interruptId), _ =>
      { course with resumed := course.resumed || decide ((deployment, threadId, interruptId) = slot) }
  | _, _ => course

/-- This protocol follows the course of one call. -/
abbrev courseProtocol (slot : Slot) : Protocol signature := ⟨Course, fun _ _ => True, courseNext slot⟩

/-- A call whose answers all favour the submission. -/
abbrev favourMachine (slot : Slot) (submission : Submission) : Machine signature Course :=
  (courseProtocol slot).limited fun op answer => favours submission op answer = true

/-- The call has reached the resume, or it was turned away. -/
def Course.settled (course : Course) : Prop := course.resumed = true ∨ course.found = some true

/-- Nothing takes back what is settled. -/
theorem Course.settled_next {course : Course} (settled : course.settled) (slot : Slot) (op : Effect) (answer : op.Answer) :
    (courseNext slot course op answer).settled := by
  unfold Course.settled at settled ⊢
  unfold courseNext
  split
  · rcases settled with resumed | found
    · exact .inl resumed
    · exact .inr (by simp [found])
  · rcases settled with resumed | found
    · exact .inl (by simp [resumed])
    · exact .inr found
  · exact settled

/-- An operation outside the areas of the slot keeps the course. -/
theorem courseNext_neutral (slot : Slot) (course : Course) {op : Effect} (answer : op.Answer)
    (outside : op.area ∉ slotAreas) : courseNext slot course op answer = course := by
  cases op with
  | read store => cases store <;> first | rfl | exact absurd (List.mem_cons_self ..) outside
  | note point => cases point <;> first | rfl | exact absurd (by simp [slotAreas, Effect.area, Note.area]) outside
  | _ => rfl

/-- A favourable read decodes. -/
theorem decodes_of_favours {submission : Submission} {store : Store} {file : File store.Data}
    (favoured : favours submission (Effect.read store) file = true) : ∃ data, decode store file = .ok data := by
  cases decoded : decode store file with
  | ok data => exact ⟨data, rfl⟩
  | error exc => cases store <;> simp [favours, decodesTo, decoded] at favoured

section
variable {A B : Type} {slot : Slot} {submission : Submission} {course : Course}
  {post : Except Exc A → Course → Prop}

/-- Any program keeps what is settled. -/
theorem keeps_settled (program : Py A) : Fallible.Keeps (favourMachine slot submission) Course.settled program := by
  intro course settled
  have each : Fallible.Uses (fun op => ∀ course : Course, course.settled →
      (favourMachine slot submission).guard course op ∧ ∀ answer final,
        (favourMachine slot submission).step course op answer final → final.settled) program := by
    unfold Fallible.Uses
    induction program.toProgram with
    | pure value => trivial
    | perform op next ih =>
        refine ⟨fun course settled => ⟨trivial, ?_⟩, ih⟩
        rintro answer _ ⟨_, rfl⟩
        exact Course.settled_next settled slot op answer
  exact Fallible.keeps_of_uses each course settled

/-- A program outside the areas of the slot keeps the course. -/
theorem wp_aside {areas : List Area} (disjoint : ∀ area ∈ areas, area ∉ slotAreas) {program : Py A}
    (within : Within areas program) (course : Course) :
    Fallible.wp (favourMachine slot submission) program (fun _ _ after => after = course) course := by
  apply Fallible.wp_of_uses (Fallible.Uses.mono within ?_)
  intro op inside
  refine ⟨trivial, ?_⟩
  rintro answer _ ⟨_, rfl⟩
  exact courseNext_neutral slot course answer (disjoint _ inside)

/-- A favourable load gives the data of its file. -/
theorem wp_favoured_load (store : Store) {rest : store.Data → Py A}
    (read : ∀ file data, favours submission (Effect.read store) file = true → decode store file = .ok data →
      Fallible.wp (favourMachine slot submission) (rest data) (fun _ => post)
        (courseNext slot course (Effect.read store) file)) :
    Fallible.wp (favourMachine slot submission) (load store >>= rest) (fun _ => post) course := by
  simp only [Fallible.wp_bind, wp_load]
  refine ⟨trivial, ?_⟩
  rintro file _ ⟨favoured, rfl⟩
  obtain ⟨data, decoded⟩ := decodes_of_favours favoured
  rw [decoded]
  exact read file data favoured decoded

/-- The liveness probe cannot fail. -/
theorem verifiedRecord_favoured (endpoint : String) (record : Option LifecycleRecord) :
    Fallible.wp (favourMachine slot submission) (verifiedRecord endpoint record)
      (fun _ outcome after => after = course ∧ ∃ verified, outcome = .ok verified) course := by
  unfold verifiedRecord
  split
  · exact ⟨rfl, none, rfl⟩
  split
  · rw [Fallible.wp_bind, wp_call]
    refine ⟨trivial, ?_⟩
    rintro alive _ ⟨_, rfl⟩
    exact ⟨rfl, _, rfl⟩
  · exact ⟨rfl, none, rfl⟩

/-- The launch of a favoured call succeeds. -/
theorem launchDeployment_favoured (deployment : String) (connection : Connection) (data : Dict String LifecycleRecord)
    (now healthTimeout : Time) (holder : Holder) :
    Fallible.wp (favourMachine slot submission) (launchDeployment deployment connection data now healthTimeout holder)
      (fun _ outcome after => after = course ∧ ∃ pid, outcome = .ok (.running pid)) course := by
  unfold launchDeployment
  rw [Fallible.wp_bind, wp_call]
  refine ⟨trivial, ?_⟩
  rintro launched _ ⟨favoured, rfl⟩
  cases launched with
  | error exc => cases favoured
  | ok pid =>
      simp only [Fallible.after_ok, Fallible.wp_bind, wp_call]
      refine ⟨trivial, ?_⟩
      rintro healthy _ ⟨favoured, rfl⟩
      obtain rfl : healthy = true := favoured
      simp only [Fallible.after_ok, if_true, Fallible.wp_bind, wp_writeAtomic, wp_note, Fallible.wp_pure]
      refine ⟨trivial, ?_⟩
      rintro _ ⟨_, rfl⟩
      refine ⟨trivial, ?_⟩
      rintro _ ⟨_, rfl⟩
      exact ⟨rfl, some pid, rfl⟩

/-- The Deployment of a favoured call starts. -/
theorem ensureStarted_favoured (deployment : String) (connection : Connection) (now healthTimeout : Time)
    (holder : Holder) :
    Fallible.wp (favourMachine slot submission) (ensureStarted deployment connection now healthTimeout holder)
      (fun _ outcome after => after = course ∧ ∃ started, outcome = .ok started ∧ ∀ error, started ≠ .startFailed error)
      course := by
  unfold ensureStarted
  split
  · exact ⟨rfl, .external, rfl, fun _ same => by cases same⟩
  apply wp_favoured_load .lifecycle
  intro file data _ _
  apply Fallible.wp_seq (verifiedRecord_favoured _ _)
  · rintro _ verified _ ⟨rfl, _⟩
    cases verified with
    | none =>
        apply Fallible.wp_mono (launchDeployment_favoured deployment connection data now healthTimeout holder)
        rintro _ outcome _ ⟨rfl, pid, rfl⟩
        exact ⟨rfl, .running pid, rfl, fun _ same => by cases same⟩
    | some record =>
        simp only [Fallible.wp_bind, wp_writeAtomic, Fallible.after_ok, wp_note, Fallible.wp_pure]
        refine ⟨trivial, ?_⟩
        rintro _ ⟨_, rfl⟩
        refine ⟨trivial, ?_⟩
        rintro _ ⟨_, rfl⟩
        exact ⟨rfl, .running record.pid, rfl, fun _ same => by cases same⟩
  · rintro _ exc _ ⟨_, _, raised⟩
    cases raised

/-- The first read of a favoured claim decides it. -/
theorem claim_favoured (deployment threadId interruptId : String) (now : Time)
    (named : checkTexts .responseDedupe [("deployment alias", deployment), ("thread ID", threadId),
      ("interrupt ID", interruptId)] = .ok ()) (unread : course.found = none) :
    Fallible.wp (favourMachine (deployment, threadId, interruptId) submission)
      (claim deployment threadId interruptId now)
      (fun _ outcome after => ∃ taken, outcome = .ok (!taken) ∧ after = { course with found := some taken }) course := by
  simp only [claim, Fallible.wp_bind, wp_key, named, Except.map, Fallible.after_ok, wp_locked, loadResponseDedupe,
    wp_load]
  refine ⟨trivial, ?_⟩
  rintro entered ⟨_, same⟩
  obtain rfl : course = entered := same.symm
  refine ⟨trivial, ?_⟩
  rintro file _ ⟨favoured, rfl⟩
  obtain ⟨data, decoded⟩ := decodes_of_favours favoured
  rw [decoded, Fallible.after_ok, Fallible.wp_ite]
  -- The first read finds the record, or finds none.
  have first : courseNext (deployment, threadId, interruptId) course (Effect.read .responseDedupe) file =
      { course with found := some (data.get? (deployment, threadId, interruptId)).isSome } := by
    simp [courseNext, unread, find?_of_decode decoded]
  split
  · rename_i present
    refine ⟨trivial, ?_⟩
    rintro _ ⟨_, rfl⟩
    simp only [Fallible.after_ok, Fallible.wp_bind, wp_note, Fallible.wp_pure]
    refine ⟨trivial, ?_⟩
    rintro _ ⟨_, rfl⟩
    exact ⟨true, rfl, first.trans (by rw [present])⟩
  · rename_i absent
    simp only [Fallible.wp_bind, wp_writeAtomic]
    refine ⟨trivial, ?_⟩
    rintro _ ⟨_, rfl⟩
    refine ⟨trivial, ?_⟩
    rintro _ ⟨_, rfl⟩
    simp only [Fallible.after_ok, Fallible.wp_bind, wp_note, Fallible.wp_pure]
    refine ⟨trivial, ?_⟩
    rintro _ ⟨_, rfl⟩
    exact ⟨false, rfl, first.trans (by rw [Bool.eq_false_of_not_eq_true absent])⟩

/-- A favoured call knows the latest invocation of the Thread, or knows no Thread. -/
theorem logicalRun_favoured :
    Fallible.wp (favourMachine slot submission) (RunContinuity.logicalRun submission.deployment submission.threadId)
      (fun _ outcome after => after = course ∧ (∀ record, outcome = .ok record → record.apiRunIds ≠ []) ∧
        ∀ exc, outcome = .error exc → exc.kind = .unknownThread) course := by
  apply wp_favoured_load .continuity
  intro file data favoured decoded
  simp only [favours, decodesTo, decoded] at favoured
  cases stored : (data.get? submission.deployment).bind fun threads => threads.get? submission.threadId with
  | none =>
      refine ⟨rfl, fun _ same => ?_, fun exc same => ?_⟩
      · cases same
      · obtain rfl := Except.error.inj same
        rfl
  | some record =>
      simp only [stored] at favoured
      refine ⟨rfl, fun known same => ?_, fun exc same => ?_⟩
      · obtain rfl := Except.ok.inj same
        simpa using favoured
      · cases same

/-- A favoured call describes the Run, or leaves it undescribed. -/
theorem describeLatest_favoured (endpoint : String) :
    Fallible.wp (favourMachine slot submission) (describeLatest submission endpoint)
      (fun _ outcome after => after = course ∧ ∃ described, outcome = .ok described) course := by
  unfold describeLatest
  rw [Fallible.wp_bind, Fallible.wp_attempt]
  apply Fallible.wp_seq logicalRun_favoured
  · rintro _ record _ ⟨rfl, nonempty, _⟩
    cases last : record.apiRunIds.getLast? with
    | none => exact absurd (List.getLast?_eq_none_iff.mp last) (nonempty record rfl)
    | some latest =>
        simp only [AegraBackend.getRun, Fallible.wp_bind, wp_call]
        refine ⟨trivial, ?_⟩
        rintro answer _ ⟨favoured, rfl⟩
        cases answer with
        | ok info => exact ⟨rfl, _, rfl⟩
        | error exc =>
            have transport : exc.isRuntimeError = true := favoured
            simp only [Fallible.after_ok, Fallible.wp_ofExcept, transport, true_or, if_true]
            exact ⟨rfl, _, rfl⟩
  · rintro _ exc _ ⟨rfl, _, unknown⟩
    have kind : exc.kind = .unknownThread := unknown exc rfl
    rw [Fallible.after_ok]
    simp only [kind, or_true, if_true]
    exact ⟨rfl, _, rfl⟩

/-- A boundary that accepts the operator lets the call through. -/
theorem authorize_favoured {boundary : EntityAuthBoundary} (accepts : Accepts submission boundary) (assistant : String)
    {currentRevision : Json} (current : (Json.ofText submission.revision).pyEq currentRevision = true) :
    Fallible.wp (favourMachine slot submission) (boundary.authorize ⟨submission.deployment, assistant,
        submission.threadId, submission.interruptId, submission.approver, submission.responseValue,
        submission.revision⟩ currentRevision true)
      (fun _ outcome after => after = course ∧ ∃ decision, outcome = .ok decision ∧ decision.accepted = true)
      course := by
  apply Program.wp_of_runs fun _ _ => trivial
  intro trace outcome after run
  have aside := Program.wp_runs (wp_aside (by decide) (boundary.authorize_inside _ _ _) course) run
  exact ⟨aside, accepts assistant currentRevision current trace outcome (runs_open run) (Protocol.good_of_runs run)⟩

end

section
variable {submission : Submission} {course : Course}

/-- A favoured call can look up its tracked entry. -/
theorem getPending_favoured (named : submission.Named) :
    Fallible.wp (favourMachine submission.slot submission)
      (PendingCompletions.getPending submission.deployment submission.threadId)
      (fun _ outcome after => after = course ∧ ∃ pending, outcome = .ok pending) course := by
  apply wp_favoured_load .pending
  intro file data _ _
  rw [Fallible.wp_bind, PendingCompletions.wp_key]
  simp only [checkTexts, List.find?, named.deployment, named.threadId, Except.map, Fallible.after_ok, Fallible.wp_pure]
  exact ⟨rfl, _, rfl⟩

/-- A favoured call that is authorized reaches the resume. -/
theorem resumeAuthorized_favoured (named : submission.Named) (endpoint : String) (described : Described) :
    Fallible.wp (favourMachine submission.slot submission) (resumeAuthorized submission endpoint described)
      (fun _ _ after => after.settled) course := by
  apply Fallible.wp_seq (getPending_favoured named)
  · rintro _ pending _ ⟨rfl, _⟩
    dsimp only
    rw [Fallible.wp_bind, wp_note]
    refine ⟨trivial, ?_⟩
    rintro _ ⟨_, rfl⟩
    exact keeps_settled _ _ (.inl (by simp [courseNext, Submission.slot]))
  · rintro _ exc _ ⟨_, _, raised⟩
    cases raised

/-- A favoured state lets the call reach the resume. -/
theorem authorizeState_favoured (named : submission.Named) {boundary : EntityAuthBoundary}
    (accepts : Accepts submission boundary) (endpoint : String) {state : Json} (waits : waitsFor submission state = true) :
    Fallible.wp (favourMachine submission.slot submission) (authorizeState submission boundary endpoint state)
      (fun _ _ after => after.settled) course := by
  unfold authorizeState
  unfold waitsFor at waits
  split at waits
  · rename_i facts known
    obtain ⟨pending, current⟩ := (Bool.and_eq_true _ _).mp waits
    rw [Fallible.wp_bind, Fallible.wp_ofExcept, known, Fallible.after_ok, pending]
    apply Fallible.wp_seq (describeLatest_favoured endpoint)
    · rintro _ described _ ⟨rfl, _⟩
      apply Fallible.wp_seq (authorize_favoured accepts described.assistant current)
      · rintro _ decision _ ⟨rfl, _, same, accepted⟩
        obtain rfl := Except.ok.inj same
        simp only [accepted, Bool.not_true, Bool.false_eq_true, if_false]
        exact resumeAuthorized_favoured named endpoint described
      · rintro _ exc _ ⟨_, _, raised, _⟩
        cases raised
    · rintro _ exc _ ⟨_, _, raised⟩
      cases raised
  · cases waits

/-- A favoured call reaches the resume, or it found the slot taken. -/
theorem submitClaimed_favoured (named : submission.Named) {boundary : EntityAuthBoundary}
    (accepts : Accepts submission boundary) (endpoint : String) (unread : course.found = none) :
    Fallible.wp (favourMachine submission.slot submission) (submitClaimed submission boundary endpoint)
      (fun _ _ after => after.settled) course := by
  have texts : checkTexts .responseDedupe [("deployment alias", submission.deployment),
      ("thread ID", submission.threadId), ("interrupt ID", submission.interruptId)] = .ok () := by
    simp [checkTexts, named.deployment, named.threadId, named.interruptId]
  apply Fallible.wp_seq (claim_favoured _ _ _ _ texts unread)
  · rintro _ granted _ ⟨taken, same, rfl⟩
    obtain rfl := Except.ok.inj same
    cases taken with
    | true => exact .inr rfl
    | false =>
        simp only [AegraBackend.getState, Bool.not_false, Bool.not_true, Bool.false_eq_true, if_false, Fallible.wp_bind,
          Fallible.wp_attempt, wp_call]
        refine ⟨trivial, ?_⟩
        rintro answer _ ⟨favoured, rfl⟩
        cases answer with
        | error exc => cases favoured
        | ok state => exact authorizeState_favoured named accepts endpoint favoured
  · rintro _ exc _ ⟨_, raised, _⟩
    cases raised

/-- A favoured submission reaches the resume, or it found the slot taken. -/
theorem submitResponse_favoured (named : submission.Named) {boundary : EntityAuthBoundary}
    (accepts : Accepts submission boundary) (unread : course.found = none) :
    Fallible.wp (favourMachine submission.slot submission) (submitResponse submission boundary)
      (fun _ _ after => after.settled) course := by
  apply wp_favoured_load .connections
  intro file connections favoured decoded
  simp only [favours, decodesTo, decoded] at favoured
  obtain ⟨connection, known⟩ := Option.isSome_iff_exists.mp favoured
  simp only [known]
  apply Fallible.wp_seq (ensureStarted_favoured _ _ _ _ _)
  · rintro _ started reached ⟨still, _, same, successful⟩
    obtain rfl : course = reached := still.symm
    obtain rfl := Except.ok.inj same
    have settle : Fallible.wp (favourMachine submission.slot submission)
        (settleSubmission submission boundary connection) (fun _ _ after => after.settled) course := by
      rw [settleSubmission, Fallible.wp_bind, Fallible.wp_attempt]
      apply Fallible.wp_mono (submitClaimed_favoured named accepts connection.endpoint unread)
      exact fun _ _ _ settled => keeps_settled _ _ settled
    cases started with
    | startFailed error => exact absurd rfl (successful error)
    | external => exact settle
    | running pid => exact settle
  · rintro _ exc _ ⟨_, _, raised, _⟩
    cases raised

end

end Cordboard.ApprovalInbox
