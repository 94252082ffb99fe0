import Cordboard.Data.Outcome
import Cordboard.Proof.Frame
import Cordboard.Proof.Script

namespace Cordboard.ApprovalInbox
open Data Effects Router
open DeploymentLifecycle (ensureStarted_inside releaseActive_inside)

/-- The interrupt waits in a task of the Thread state that has no result. -/
def Waits (state : Json) (interruptId : String) : Prop :=
  ∃ interrupts, interruptsOf state = .ok interrupts ∧
    ∃ interrupt ∈ interrupts, interrupt.index "id" = .ok (.str interruptId)

/-- The entity answered with status 200 and a JSON object that accepts with a proper reason. -/
def Grants (response : HttpResponse) : Prop :=
  response.statusCode = 200 ∧ ∃ members, response.body = some (.obj members) ∧
    members.lookup "accepted" = some (.bool true) ∧
    ∀ reason, members.lookup "reason" = some reason → ∃ text, reason = .str text

/-- A call remembers the Thread state that it read and the answer of the entity. -/
structure Evidence where
  state : Option Json
  response : Option HttpResponse

/-- The evidence permits a resume of the submitted interrupt. -/
def Evidence.Permits (evidence : Evidence) (submission : Submission) : Prop :=
  ∃ state response, evidence.state = some state ∧ evidence.response = some response ∧
    Waits state submission.interruptId ∧ revisionOf state = .ok (Json.ofText submission.revision) ∧
    Grants response

/-- A resume needs the evidence, and its value is the submitted one. -/
def evidenceGuard (submission : Submission) (evidence : Evidence) : Effect → Prop
  | .note (.resuming ..) => evidence.Permits submission
  | .call (.submitResume _ _ _ resumeValue) => evidence.Permits submission ∧
      resumeValue = .obj [(submission.interruptId, submission.responseValue)]
  | _ => True

/-- The newest Thread state and the newest answer of the entity are the evidence. -/
def evidenceNext (url : String) (submission : Submission) (evidence : Evidence) :
    (op : Effect) → op.Answer → Evidence
  | .call (.threadState _ threadId), .ok state =>
      if threadId = submission.threadId then { evidence with state := some state } else evidence
  | .call (.postAuthorize target _), .ok response =>
      if target = url then { evidence with response := some response } else evidence
  | _, _ => evidence

/-- This protocol follows the authority of one submission. -/
abbrev authority (url : String) (submission : Submission) : Protocol signature :=
  ⟨Evidence, evidenceGuard submission, evidenceNext url submission⟩

/-- The authority protocol follows these areas. -/
def authorityAreas : List Area := [.observation, .authority, .transport, .resumption]

section
variable (url : String) (submission : Submission) (evidence : Evidence)

/-- An operation outside the areas of the protocol is permitted and keeps the evidence. -/
theorem authority_neutral {op : Effect} (outside : op.area ∉ authorityAreas) :
    evidenceGuard submission evidence op ∧
      ∀ answer, evidenceNext url submission evidence op answer = evidence := by
  cases op with
  | call target =>
      cases target <;> first
        | exact ⟨trivial, fun _ => rfl⟩
        | exact absurd (by simp [authorityAreas, Effect.area, Call.area]) outside
  | note point =>
      cases point <;> first
        | exact ⟨trivial, fun _ => rfl⟩
        | exact absurd (by simp [authorityAreas, Effect.area, Note.area]) outside
  | _ => exact ⟨trivial, fun _ => rfl⟩

/-- The rest of the program keeps every guard of the authority protocol. -/
abbrev ObeysAuthority {A : Type} (program : Py A) : Prop :=
  Fallible.wp (authority url submission).machine program (fun _ _ _ => True) evidence

variable {url submission evidence}

theorem wp_neutral_authority {A : Type} {areas : List Area} (disjoint : ∀ area ∈ areas, area ∉ authorityAreas)
    {program : Py A} (within : Within areas program) :
    Fallible.wp (authority url submission).machine program (fun _ _ after => after = evidence) evidence :=
  wp_neutral (authority url submission)
    (fun evidence _ inside => authority_neutral url submission evidence (disjoint _ inside)) within evidence

/-- A program outside the authority areas may stand before any other one. -/
theorem obeysAuthority_seq {A B : Type} {areas : List Area} (disjoint : ∀ area ∈ areas, area ∉ authorityAreas)
    {program : Py A} (within : Within areas program) {rest : A → Py B}
    (returned : ∀ value, ObeysAuthority url submission evidence (rest value)) :
    ObeysAuthority url submission evidence (program >>= rest) :=
  Fallible.wp_seq (wp_neutral_authority disjoint within) (fun _ value _ same => same ▸ returned value)
    fun _ _ _ _ => trivial

theorem obeysAuthority_within {A : Type} {areas : List Area} (disjoint : ∀ area ∈ areas, area ∉ authorityAreas)
    {program : Py A} (within : Within areas program) : ObeysAuthority url submission evidence program :=
  Fallible.wp_mono (wp_neutral_authority disjoint within) fun _ _ _ _ => trivial

end

/-- Only a text equals a text, and only `None` equals `None`. -/
theorem eq_ofText_of_pyEq {text : Option String} {value : Json} (equal : (Json.ofText text).pyEq value = true) :
    value = Json.ofText text := by
  cases text with
  | none => cases value <;> simp_all [Json.ofText, Json.pyEq, Json.number?]
  | some text => cases value <;> simp_all [Json.ofText, Json.pyEq, Json.number?]

/-- A parsed decision accepts only on the terms of the contract. -/
theorem grants_of_parse {response : HttpResponse} {decision : AuthDecision}
    (parsed : EntityAuth.parseDecision response = some decision) (accepted : decision.accepted = true) :
    Grants response := by
  unfold EntityAuth.parseDecision at parsed
  split at parsed
  · cases parsed
  · rename_i status
    split at parsed
    · rename_i members body
      split at parsed
      · rename_i flag reason found stored
        obtain rfl := Option.some.inj parsed
        obtain rfl : flag = true := accepted
        refine ⟨not_not.mp status, members, body, found, fun other present => ⟨reason, ?_⟩⟩
        simpa [present] using stored
      · cases parsed
    · cases parsed

/-- A text is equal only to itself. -/
theorem eq_of_str_pyEq {text : String} {value : Json} (equal : (Json.str text).pyEq value = true) :
    value = .str text :=
  @eq_ofText_of_pyEq (some text) value equal

/-- The facts come from the state itself. -/
theorem readPending_facts {state : Json} {interruptId : String} {facts : ThreadFacts}
    (read : readPending state interruptId = .ok facts) :
    revisionOf state = .ok facts.currentRevision ∧ (facts.stillPending = true → Waits state interruptId) := by
  obtain ⟨interrupts, found, read⟩ := bind_ok.mp read
  obtain ⟨ids, named, read⟩ := bind_ok.mp read
  obtain ⟨revision, current, read⟩ := bind_ok.mp read
  obtain rfl := Except.ok.inj read
  refine ⟨current, fun pending => ⟨interrupts, found, ?_⟩⟩
  obtain ⟨id, member, equal⟩ := List.any_eq_true.mp pending
  obtain rfl := eq_of_str_pyEq equal
  obtain ⟨interrupt, inside, same⟩ := exists_of_mem_mapM named member
  obtain ⟨name, indexed, same⟩ := bind_ok.mp same
  split at same
  · obtain rfl := Except.ok.inj same
    exact ⟨interrupt, inside, indexed⟩
  · cases same

/-- The HTTP boundary accepts only a pending interrupt at the current revision with a granting answer. -/
theorem httpAuthorize_authority (url : String) (submission : Submission) (asked : AuthSubmission)
    (currentRevision : Json) (stillPending : Bool) (evidence : Evidence) (endpoint : String)
    (target : endpoint ++ "/authorize" = url) :
    Fallible.wp (authority url submission).machine
      (EntityAuth.httpAuthorize endpoint asked currentRevision stillPending)
      (fun _ outcome after => after.state = evidence.state ∧ ∀ decision, outcome = .ok decision →
        decision.accepted = true → stillPending = true ∧ currentRevision = Json.ofText asked.revision ∧
          ∃ response, after.response = some response ∧ Grants response) evidence := by
  unfold EntityAuth.httpAuthorize
  split
  · refine ⟨rfl, ?_⟩
    rintro _ ⟨⟩ ⟨⟩
  · rename_i pending
    split
    · refine ⟨rfl, ?_⟩
      rintro _ ⟨⟩ ⟨⟩
    · rename_i agrees
      rw [Fallible.wp_bind, wp_call]
      refine ⟨trivial, ?_⟩
      rintro answer _ rfl
      cases answer with
      | error exc =>
          rw [Fallible.after_ok]
          dsimp only
          split
          · refine ⟨rfl, ?_⟩
            rintro _ ⟨⟩ ⟨⟩
          · refine ⟨rfl, ?_⟩
            rintro _ ⟨⟩
      | ok response =>
          rw [Fallible.after_ok, Fallible.wp_pure]
          simp only [evidenceNext, target, if_true]
          refine ⟨trivial, ?_⟩
          rintro decision ⟨⟩ accepted
          refine ⟨by simpa using pending, eq_ofText_of_pyEq (by simpa using agrees), response, rfl, ?_⟩
          cases parsed : EntityAuth.parseDecision response with
          | none =>
              rw [parsed] at accepted
              cases accepted
          | some decision =>
              rw [parsed] at accepted
              exact grants_of_parse parsed accepted

section
variable {url : String} {submission : Submission} {evidence : Evidence}

/-- The transport carries exactly the submitted value. -/
theorem resume_authority (permits : evidence.Permits submission) (endpoint deployment threadId assistant : String)
    (timeout : Time) :
    Fallible.wp (authority url submission).machine
      (AegraBackend.resume endpoint deployment threadId assistant
        (.obj [(submission.interruptId, submission.responseValue)]) timeout)
      (fun _ _ after => after = evidence) evidence := by
  unfold AegraBackend.resume
  split
  · rfl
  split
  · rfl
  rw [Fallible.wp_bind, wp_call]
  refine ⟨⟨permits, rfl⟩, ?_⟩
  intro answer after moved
  obtain rfl : after = evidence := moved
  have disjoint : ∀ area ∈ [Area.inspection, .store .continuity], area ∉ authorityAreas := by decide
  apply wp_neutral_authority disjoint
  apply Within.bind (ofExcept_within _)
  intro invocationId
  apply Within.bind ((AegraBackend.waitForRun_inside _ _ _ _).mono (by decide))
  intro waited
  exact Within.bind ((RunContinuity.recordSubmission_inside _ _ _).mono (by decide)) fun _ => pure_within _

/-- An authorized submission resumes under its evidence. -/
theorem resumeAuthorized_authority (permits : evidence.Permits submission) (endpoint : String)
    (described : Described) :
    ObeysAuthority url submission evidence (resumeAuthorized submission endpoint described) := by
  refine obeysAuthority_seq (by decide) (PendingCompletions.getPending_inside _ _) fun pending => ?_
  dsimp only
  rw [ObeysAuthority, Fallible.wp_bind, wp_note]
  refine ⟨permits, ?_⟩
  intro after moved
  obtain rfl : after = evidence := moved
  rw [Fallible.after_ok, Fallible.wp_bind, Fallible.wp_attempt]
  refine Fallible.wp_mono (resume_authority permits _ _ _ _ _) ?_
  rintro _ answer _ rfl
  rw [Fallible.after_ok]
  cases answer with
  | error exc =>
      dsimp only
      split
      · exact obeysAuthority_seq (by decide) (recordOutcome_inside _ _) fun _ => trivial
      · trivial
  | ok result =>
      have learned : Inside .knowledge (note (.learned submission.deployment submission.threadId
          result.invocationId (learnedResult result))) := note_inside _
      exact obeysAuthority_seq (by decide) learned fun _ =>
        obeysAuthority_seq (by decide) (recordOutcome_inside _ _) fun _ =>
          obeysAuthority_seq (by decide) (closeClock_inside _) fun _ =>
            obeysAuthority_within (by decide) (afterResume_within _ _ _ _ _)

/-- The boundary sees the state that this call read. -/
theorem authorizeState_authority {state : Json} (read : evidence.state = some state) (authEndpoint endpoint : String)
    (target : EntityAuth.stripSlashes authEndpoint ++ "/authorize" = url) :
    ObeysAuthority url submission evidence
      (authorizeState submission (EntityAuth.httpEntityAuthBoundary authEndpoint) endpoint state) := by
  rw [authorizeState, ObeysAuthority, Fallible.wp_bind, Fallible.wp_ofExcept]
  cases facts : readPending state submission.interruptId with
  | error exc => trivial
  | ok facts =>
      obtain ⟨current, waits⟩ := readPending_facts ‹_›
      refine obeysAuthority_seq (by decide) (describePending_within _ _ _) fun described => ?_
      refine Fallible.wp_seq (httpAuthorize_authority url submission _ _ _ evidence _ target) ?_ fun _ _ _ _ => trivial
      rintro _ decision after ⟨kept, accepted⟩
      split
      · exact obeysAuthority_seq (by decide) (recordOutcome_inside _ _) fun _ => trivial
      · rename_i granted
        obtain ⟨pending, agrees, response, stored, grants⟩ := accepted decision rfl (by simpa using granted)
        refine resumeAuthorized_authority ⟨state, response, kept.trans read, stored, waits pending, ?_, grants⟩ _ _
        rw [current, agrees]

/-- Every submission to an HTTP boundary obeys the authority protocol. -/
theorem submitResponse_authority (authEndpoint : String)
    (target : EntityAuth.stripSlashes authEndpoint ++ "/authorize" = url) :
    ObeysAuthority url submission evidence
      (submitResponse submission (EntityAuth.httpEntityAuthBoundary authEndpoint)) := by
  have claimed (endpoint : String) : ObeysAuthority url submission evidence
      (submitClaimed submission (EntityAuth.httpEntityAuthBoundary authEndpoint) endpoint) := by
    refine obeysAuthority_seq (by decide) (ResponseDedupe.claim_inside _ _ _ _) fun granted => ?_
    split
    · trivial
    rw [ObeysAuthority, Fallible.wp_bind, Fallible.wp_attempt, AegraBackend.getState, Fallible.wp_bind, wp_call]
    refine ⟨trivial, ?_⟩
    rintro answer _ rfl
    rw [Fallible.after_ok, Fallible.wp_ofExcept, Fallible.after_ok]
    cases answer with
    | error exc =>
        dsimp only
        split
        · exact obeysAuthority_seq (by decide) (recordOutcome_inside _ _) fun _ => trivial
        · trivial
    | ok state => exact authorizeState_authority (by simp [evidenceNext]) _ _ target
  have settle (connection : Connection) : ObeysAuthority url submission evidence
      (settleSubmission submission (EntityAuth.httpEntityAuthBoundary authEndpoint) connection) := by
    rw [settleSubmission, ObeysAuthority, Fallible.wp_bind, Fallible.wp_attempt]
    refine Fallible.wp_mono (claimed connection.endpoint) ?_
    intro _ outcome after _
    rw [Fallible.after_ok]
    cases outcome with
    | error exc => exact obeysAuthority_seq (by decide) (releaseActive_inside _ _ _ rfl) fun _ => trivial
    | ok answer =>
        exact obeysAuthority_within (by decide)
          (Within.bind (whenever_within (releaseActive_inside _ _ _ rfl)) fun _ => ofExcept_within _)
  refine obeysAuthority_seq (by decide) (load_inside .connections) fun connections => ?_
  split
  · trivial
  · refine obeysAuthority_seq (by decide) (ensureStarted_inside _ _ _ _ _) fun started => ?_
    cases started with
    | startFailed error => trivial
    | external => exact settle _
    | running pid => exact settle _

end

/-- The call read a Thread state in which the interrupt waits at the submitted revision,
and the endpoint of the entity granted the submission. -/
def Authorized (submission : Submission) (authEndpoint : String) (past : List signature.Event) : Prop :=
  ∃ endpoint state body response,
    ⟨Effect.call (.threadState endpoint submission.threadId), .ok state⟩ ∈ past ∧
    Waits state submission.interruptId ∧ revisionOf state = .ok (Json.ofText submission.revision) ∧
    ⟨Effect.call (.postAuthorize (EntityAuth.stripSlashes authEndpoint ++ "/authorize") body), .ok response⟩ ∈ past ∧
    Grants response

/-- The operation belongs to a call of `backend.resume`. -/
def resumes : Effect → Bool
  | .note (.resuming ..) => true
  | .call (.submitResume ..) => true
  | _ => false

section
variable {url : String} {submission : Submission} {evidence : Evidence}

theorem evidenceNext_state {op : Effect} {answer : op.Answer} {state : Json}
    (known : (evidenceNext url submission evidence op answer).state = some state) :
    evidence.state = some state ∨ ∃ endpoint,
      (⟨op, answer⟩ : signature.Event) = ⟨Effect.call (.threadState endpoint submission.threadId), .ok state⟩ := by
  unfold evidenceNext at known
  split at known
  · split at known
    · rename_i same
      obtain rfl := Option.some.inj known
      exact .inr ⟨_, by rw [same]⟩
    · exact .inl known
  · split at known <;> exact .inl known
  · exact .inl known

theorem evidenceNext_response {op : Effect} {answer : op.Answer} {response : HttpResponse}
    (known : (evidenceNext url submission evidence op answer).response = some response) :
    evidence.response = some response ∨ ∃ body,
      (⟨op, answer⟩ : signature.Event) = ⟨Effect.call (.postAuthorize url body), .ok response⟩ := by
  unfold evidenceNext at known
  split at known
  · split at known <;> exact .inl known
  · split at known
    · rename_i same
      obtain rfl := Option.some.inj known
      exact .inr ⟨_, by rw [same]⟩
    · exact .inl known
  · exact .inl known

/-- The evidence of a call comes from its own past. -/
theorem evidence_of_past (past : List signature.Event) :
    (∀ state, ((authority url submission).after evidence past).state = some state →
      evidence.state = some state ∨ ∃ endpoint,
        ⟨Effect.call (.threadState endpoint submission.threadId), .ok state⟩ ∈ past) ∧
    ∀ response, ((authority url submission).after evidence past).response = some response →
      evidence.response = some response ∨ ∃ body,
        ⟨Effect.call (.postAuthorize url body), .ok response⟩ ∈ past := by
  induction past generalizing evidence with
  | nil => exact ⟨fun _ known => .inl known, fun _ known => .inl known⟩
  | cons event past ih =>
      obtain ⟨op, answer⟩ := event
      refine ⟨fun state known => ?_, fun response known => ?_⟩
      · rcases ih.1 state known with earlier | ⟨endpoint, member⟩
        · rcases evidenceNext_state earlier with before | ⟨endpoint, same⟩
          · exact .inl before
          · exact .inr ⟨endpoint, same ▸ List.mem_cons_self ..⟩
        · exact .inr ⟨endpoint, List.mem_cons_of_mem _ member⟩
      · rcases ih.2 response known with earlier | ⟨body, member⟩
        · rcases evidenceNext_response earlier with before | ⟨body, same⟩
          · exact .inl before
          · exact .inr ⟨body, same ▸ List.mem_cons_self ..⟩
        · exact .inr ⟨body, List.mem_cons_of_mem _ member⟩

/-- A resume that the protocol permits was authorized in the past of the same call. -/
theorem authorized_of_permits {authEndpoint : String} {past : List signature.Event}
    (permits : ((authority (EntityAuth.stripSlashes authEndpoint ++ "/authorize") submission).after
      ⟨none, none⟩ past).Permits submission) : Authorized submission authEndpoint past := by
  obtain ⟨state, response, read, granted, waits, revision, grants⟩ := permits
  obtain absent | ⟨endpoint, observed⟩ := (evidence_of_past past).1 state read
  · cases absent
  obtain absent | ⟨body, answered⟩ := (evidence_of_past past).2 response granted
  · cases absent
  exact ⟨endpoint, state, body, response, observed, waits, revision, answered, grants⟩

end

/-- A submission to an HTTP boundary resumes only with authority, and with exactly the submitted value.
The other processes, the backend, and the endpoint of the entity can answer in any way. -/
theorem resume_needs_authority (submission : Submission) (authEndpoint : String) {trace : List signature.Event}
    {outcome : Except Exc SubmissionResult}
    (run : Runs openMachine (submitResponse submission (EntityAuth.httpEntityAuthBoundary authEndpoint)).toProgram
      () trace outcome ()) :
    (∀ before event later, trace = before ++ event :: later → resumes event.1 = true →
      Authorized submission authEndpoint before) ∧
    ∀ endpoint threadId assistant resumeValue answer,
      ⟨Effect.call (.submitResume endpoint threadId assistant resumeValue), answer⟩ ∈ trace →
        resumeValue = .obj [(submission.interruptId, submission.responseValue)] := by
  let protocol := authority (EntityAuth.stripSlashes authEndpoint ++ "/authorize") submission
  have obeys : protocol.Obeys (submitResponse submission (EntityAuth.httpEntityAuthBoundary authEndpoint)).toProgram
      ⟨none, none⟩ := submitResponse_authority authEndpoint rfl
  constructor
  · intro before event later split called
    have permitted := protocol.guard_of_runs obeys run split
    obtain ⟨op, answer⟩ := event
    cases op with
    | note point =>
        cases point with
        | resuming deployment threadId interruptId => exact authorized_of_permits permitted
        | _ => cases called
    | call target =>
        cases target with
        | submitResume endpoint threadId assistant resumeValue => exact authorized_of_permits permitted.1
        | _ => cases called
    | _ => cases called
  · intro endpoint threadId assistant resumeValue answer member
    obtain ⟨before, later, split⟩ := List.append_of_mem member
    exact (protocol.guard_of_runs obeys run split).2

/-- An entity grants this submission over HTTP, and the Run then pauses again. -/
def grantScript : Script := fun past target =>
  match target with
  | .threadState .. => .ok (.obj [("checkpoint", .obj [("checkpoint_id", .str "revision-1")]),
      ("tasks", .arr [.obj [("interrupts", .arr [.obj [("id", .str "interrupt-1")]])]])])
  | .postAuthorize .. => .ok ⟨200, some (.obj [("accepted", .bool true)])⟩
  | other => calm past other

def grantBoard : Board
  | .connections => .content (Dict.empty.set "local" ⟨"http://localhost", [], none⟩)
  | .continuity => .content (Dict.empty.set "local" (Dict.empty.set "thread-1" ⟨"run-1", ["run-1"]⟩))
  | _ => .missing

def grantSubmission : Submission :=
  ⟨"local", "thread-1", "interrupt-1", "operator", .bool true, some "revision-1", 0, 120⟩

def grantRun : Result signature Board (Except Exc SubmissionResult) :=
  grantScript.exec (submitResponse grantSubmission (EntityAuth.httpEntityAuthBoundary "http://entity/")) grantBoard

theorem resume_needs_authority_grant :
    grantRun.trace.countP (fun event => resumes event.1) = 2 ∧
      ∀ before event later, grantRun.trace = before ++ event :: later → resumes event.1 = true →
        Authorized grantSubmission "http://entity/" before :=
  ⟨by decide +kernel, (resume_needs_authority grantSubmission "http://entity/"
    (runs_open (grantScript.exec_runs _ _))).1⟩

end Cordboard.ApprovalInbox
