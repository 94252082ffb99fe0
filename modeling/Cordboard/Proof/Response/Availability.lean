import Cordboard.Proof.Response.Favour

namespace Cordboard.ApprovalInbox
open Data Effects ResponseDedupe

/-- The process took the slot: it wrote a record where the file had none. -/
def takes (slot : Slot) (start : File Store.responseDedupe.Data) (pid : Pid) : Chronicle → Bool
  | [] => false
  | .act other ⟨.write .responseDedupe data, _⟩ :: history =>
      (decide (other = pid) && ((fileAfter .responseDedupe start history).find? slot).isNone &&
        (Dict.get? data slot).isSome) || takes slot start pid history
  | _ :: history => takes slot start pid history

/-- The write of this phase fills the slot. -/
def fillsNow (slot : Slot) (phase : Phase) : Effect → Bool
  | .write .responseDedupe data => fills slot phase.place data
  | _ => false

/-- Only a write that fills the slot gives a right to it. -/
theorem right_next {slot : Slot} {phase : Phase} {op : Effect} (permitted : slotGuard slot phase op)
    (answer : op.Answer) :
    (slotNext slot phase op answer).right ≠ .none ↔ phase.right ≠ .none ∨ fillsNow slot phase op = true := by
  unfold slotNext
  split
  · simp [fillsNow]
  · rename_i data _
    by_cases fill : fills slot phase.place data = true
    · simp [fillsNow, fill]
    · simp [fillsNow, fill]
  · simp [fillsNow]
  · simp [fillsNow]
  · rename_i deployment threadId interruptId _
    by_cases same : (deployment, threadId, interruptId) = slot
    · have written : phase.right = .written := permitted same
      simp [fillsNow, same, written]
    · simp [fillsNow, same]
  · rename_i deployment threadId interruptId _
    by_cases same : (deployment, threadId, interruptId) = slot
    · have granted : phase.right = .granted := permitted same
      simp [fillsNow, same, granted]
    · simp [fillsNow, same]
  · rename_i unwritten _ _ _ _
    have quiet : fillsNow slot phase op = false := by
      cases op with
      | write store data => cases store <;> first | rfl | exact (unwritten data answer rfl HEq.rfl).elim
      | _ => rfl
    simp [quiet]

/-- A slot is taken by the process that fills it. A call that finds it taken comes after another one. -/
structure Turned (slot : Slot) (start : File Store.responseDedupe.Data) (history : Chronicle) (phases : Pid → Phase)
    (courses : Pid → Course) (world : World) : Prop where
  stored : world.board .responseDedupe = fileAfter .responseDedupe start history
  took : ∀ pid, takes slot start pid history = true ↔ (phases pid).right ≠ .none
  late : (start.find? slot).isSome → ((world.board .responseDedupe).find? slot).isSome ∧
    ∀ pid, (phases pid).right = .none
  origin : ((world.board .responseDedupe).find? slot).isSome → (start.find? slot).isSome ∨ ∃ pid, (phases pid).right ≠ .none
  unread : ∀ pid, (courses pid).found = none → (phases pid).right = .none ∧ ∀ file, (phases pid).place ≠ .loaded file
  turned : ∀ pid, (courses pid).found = some true → (start.find? slot).isSome ∨
    ∃ other, other ≠ pid ∧ (phases other).right ≠ .none
  resumed : ∀ pid, (courses pid).resumed = true → (phases pid).right ≠ .none

section
variable {slot : Slot} {start : File Store.responseDedupe.Data} {history : Chronicle} {phases : Pid → Phase}
  {courses : Pid → Course} {world after : World} {pid : Pid}

theorem turned_start (board : Board) :
    Turned slot (board .responseDedupe) [] (fun _ => ⟨.outside, .none⟩) (fun _ => ⟨none, false⟩) (World.fresh board) where
  stored := rfl
  took _ := by simp [takes]
  late present := ⟨present, fun _ => rfl⟩
  origin present := .inl present
  unread _ _ := ⟨rfl, fun _ same => by cases same⟩
  turned _ found := by cases found
  resumed _ resumed := by cases resumed

theorem turned_crash (turned : Turned slot start history phases courses world) (pid : Pid) :
    Turned slot start (.crash pid :: history) phases courses (world.stop pid) where
  stored := turned.stored
  took := turned.took
  late := turned.late
  origin := turned.origin
  unread := turned.unread
  turned := turned.turned
  resumed := turned.resumed

/-- The slot is filled after the step when it was filled before, or when the step fills it. -/
theorem filled_next (holds : Holds slot start history phases world) (running : Label.crash pid ∉ history)
    {op : Effect} {answer : op.Answer} (permitted : slotGuard slot (phases pid) op)
    (move : worldStep pid world op answer after) :
    ((after.board .responseDedupe).find? slot).isSome ↔
      ((world.board .responseDedupe).find? slot).isSome ∨ fillsNow slot (phases pid) op = true := by
  by_cases writing : op.writes .responseDedupe = true
  · cases op with
    | write store data =>
        obtain rfl : store = .responseDedupe := by simpa [Effect.writes] using writing
        obtain rfl := move
        obtain ⟨file, place, follows⟩ := permitted
        rw [World.write_board, Board.put_self, File.find?_content, holds.fresh pid file running place]
        simp only [fillsNow, place, fills, Bool.and_eq_true]
        cases old : file.find? slot with
        | none => simp
        | some claim =>
            obtain ⟨next, new, _⟩ := follows claim old
            simp [new]
    | _ => cases writing
  · have quiet : fillsNow slot (phases pid) op = false := by
      cases op with
      | write store data => cases store <;> first | rfl | exact absurd rfl writing
      | _ => rfl
    rw [worldStep_frame move (Bool.eq_false_of_not_eq_true writing), quiet]
    simp

/-- The step takes the slot exactly when its write fills it. -/
theorem takes_next (holds : Holds slot start history phases world) (running : Label.crash pid ∉ history)
    (turned : Turned slot start history phases courses world) {op : Effect} {answer : op.Answer}
    (permitted : slotGuard slot (phases pid) op) (other : Pid) :
    takes slot start other (.act pid ⟨op, answer⟩ :: history) = true ↔
      takes slot start other history = true ∨ other = pid ∧ fillsNow slot (phases pid) op = true := by
  cases op with
  | write store data =>
      cases store with
      | responseDedupe =>
          obtain ⟨file, place, follows⟩ := permitted
          have current : fileAfter .responseDedupe start history = file :=
            turned.stored.symm.trans (holds.fresh pid file running place)
          simp only [takes, fillsNow, place, fills, current, Bool.or_eq_true, Bool.and_eq_true, decide_eq_true_eq]
          constructor
          · rintro (⟨⟨rfl, empty⟩, full⟩ | earlier)
            · exact .inr ⟨rfl, empty, full⟩
            · exact .inl earlier
          · rintro (earlier | ⟨rfl, empty, full⟩)
            · exact .inr earlier
            · exact .inl ⟨⟨rfl, empty⟩, full⟩
      | _ => simp [takes, fillsNow]
  | _ => simp [takes, fillsNow]

/-- A slot that is filled now was empty before. -/
theorem empty_of_fillsNow (holds : Holds slot start history phases world) (running : Label.crash pid ∉ history)
    {op : Effect} (fill : fillsNow slot (phases pid) op = true) :
    (world.board .responseDedupe).find? slot = none := by
  unfold fillsNow fills at fill
  split at fill
  · split at fill
    · rename_i file place
      rw [holds.fresh pid file running place]
      exact Option.isNone_iff_eq_none.mp ((Bool.and_eq_true _ _).mp fill).1
    · cases fill
  · cases fill

/-- Only a read of the store decides what a call found. -/
theorem found_next {op : Effect} (other : op ≠ .read .responseDedupe) (course : Course) (answer : op.Answer) :
    (courseNext slot course op answer).found = course.found := by
  cases op with
  | read store => cases store <;> first | rfl | exact absurd rfl other
  | note point => cases point <;> rfl
  | _ => rfl

/-- Only a read of the store loads its file. -/
theorem place_next {op : Effect} (other : op ≠ .read .responseDedupe) {phase : Phase}
    (unloaded : ∀ file, phase.place ≠ .loaded file) (answer : op.Answer) (file : File Store.responseDedupe.Data) :
    (slotNext slot phase op answer).place ≠ .loaded file := by
  unfold slotNext
  split
  · exact absurd rfl other
  · exact fun same => by cases same
  · exact fun same => by cases same
  · exact fun same => by cases same
  · exact unloaded file
  · exact unloaded file
  · exact unloaded file

/-- A process that has not loaded the file fills nothing. -/
theorem fillsNow_unloaded {phase : Phase} (unloaded : ∀ file, phase.place ≠ .loaded file) (op : Effect) :
    fillsNow slot phase op = false := by
  unfold fillsNow fills
  split
  · split
    · rename_i file place
      exact absurd place (unloaded file)
    · rfl
  · rfl

/-- Each permitted operation of a running process keeps the invariant. -/
theorem turned_act (holds : Holds slot start history phases world)
    (turned : Turned slot start history phases courses world) (running : Label.crash pid ∉ history) {op : Effect}
    {answer : op.Answer} (permitted : slotGuard slot (phases pid) op) (move : worldStep pid world op answer after) :
    Turned slot start (.act pid ⟨op, answer⟩ :: history)
      (Function.update phases pid (slotNext slot (phases pid) op answer))
      (Function.update courses pid (courseNext slot (courses pid) op answer)) after := by
  have rights (other : Pid) : (Function.update phases pid (slotNext slot (phases pid) op answer) other).right ≠ .none ↔
      (phases other).right ≠ .none ∨ other = pid ∧ fillsNow slot (phases pid) op = true := by
    by_cases moved : other = pid
    · subst moved
      rw [Function.update_self, right_next permitted answer]
      simp
    · rw [place_of_update moved]
      simp [moved]
  have more (other : Pid) (right : (phases other).right ≠ .none) := (rights other).mpr (.inl right)
  refine ⟨fileAfter_act start move turned.stored, ?_, ?_, ?_, ?_, ?_, ?_⟩
  · intro other
    rw [takes_next holds running turned permitted, rights, turned.took]
  · intro present
    refine ⟨(filled_next holds running permitted move).mpr (.inl (turned.late present).1), fun other => ?_⟩
    by_contra right
    rcases (rights other).mp right with earlier | ⟨_, fill⟩
    · exact earlier ((turned.late present).2 other)
    · have filled := (turned.late present).1
      rw [empty_of_fillsNow holds running fill] at filled
      cases filled
  · intro present
    rcases (filled_next holds running permitted move).mp present with earlier | fill
    · rcases turned.origin earlier with first | ⟨other, right⟩
      · exact .inl first
      · exact .inr ⟨other, more other right⟩
    · exact .inr ⟨pid, (rights pid).mpr (.inr ⟨rfl, fill⟩)⟩
  · intro other found
    by_cases moved : other = pid
    · subst moved
      rw [Function.update_self] at found ⊢
      by_cases reading : op = .read .responseDedupe
      · subst reading
        simp [courseNext] at found
      · obtain ⟨unclaimed, unloaded⟩ := turned.unread other ((found_next reading _ answer).symm.trans found)
        refine ⟨?_, place_next reading unloaded answer⟩
        by_contra right
        rcases (right_next permitted answer).mp right with before | fill
        · exact before unclaimed
        · rw [fillsNow_unloaded unloaded] at fill
          cases fill
    · rw [Function.update_of_ne moved] at found
      rw [place_of_update moved]
      exact turned.unread other found
  · intro other found
    have kept : (courses other).found = some true → (start.find? slot).isSome ∨
        ∃ third, third ≠ other ∧ (Function.update phases pid (slotNext slot (phases pid) op answer) third).right ≠ .none := by
      intro earlier
      rcases turned.turned other earlier with first | ⟨third, different, right⟩
      · exact .inl first
      · exact .inr ⟨third, different, more third right⟩
    by_cases moved : other = pid
    · subst moved
      rw [Function.update_self] at found
      by_cases reading : op = .read .responseDedupe
      · subst reading
        obtain ⟨rfl, rfl⟩ := move
        cases first : (courses other).found with
        | some taken => exact kept (by simpa [courseNext, first] using found)
        | none =>
            -- The first read of this call comes before its own write.
            have present : ((after.board .responseDedupe).find? slot).isSome := by
              simpa [courseNext, first] using found
            refine (turned.origin present).imp_right ?_
            rintro ⟨third, right⟩
            refine ⟨third, ?_, more third right⟩
            rintro rfl
            exact right (turned.unread third first).1
      · exact kept ((found_next reading _ answer).symm.trans found)
    · rw [Function.update_of_ne moved] at found
      exact kept found
  · intro other resumed
    by_cases moved : other = pid
    · subst moved
      rw [Function.update_self] at resumed
      by_cases earlier : (courses other).resumed = true
      · exact more other (turned.resumed other earlier)
      · have granted : (phases other).right = .granted := by
          unfold courseNext at resumed
          split at resumed
          · exact absurd resumed earlier
          · exact permitted (by simpa [earlier] using resumed)
          · exact absurd resumed earlier
        exact more other (by simp [granted])
    · rw [Function.update_of_ne moved] at resumed
      exact more other (turned.resumed other resumed)

end

/-- A course that reached the resume has its note in the history. -/
theorem resume_of_course (slot : Slot) (history : Chronicle) (pid : Pid)
    (resumed : ((courseProtocol slot).phase (fun _ => ⟨none, false⟩) history pid).resumed = true) :
    ∃ event, .act pid event ∈ history ∧ isResume slot (.act pid event) = true := by
  induction history with
  | nil => cases resumed
  | cons label history ih =>
      have older (earlier : ((courseProtocol slot).phase (fun _ => ⟨none, false⟩) history pid).resumed = true) :
          ∃ event, .act pid event ∈ label :: history ∧ isResume slot (.act pid event) = true := by
        obtain ⟨event, member, resumes⟩ := ih earlier
        exact ⟨event, List.mem_cons_of_mem _ member, resumes⟩
      cases label with
      | crash other => exact older resumed
      | act other event =>
          by_cases same : pid = other
          · subst other
            rw [Protocol.phase_act_self] at resumed
            obtain ⟨op, answer⟩ := event
            unfold courseProtocol courseNext at resumed
            dsimp only at resumed
            split at resumed
            · exact older resumed
            · rcases (Bool.or_eq_true _ _).mp resumed with earlier | now
              · exact older earlier
              · exact ⟨_, List.mem_cons_self, by simpa [isResume] using now⟩
            · exact older resumed
          · rw [Protocol.phase_act_of_ne _ _ same] at resumed
            exact older resumed

/-- A program that asks once has one event. -/
theorem runs_call {A : Type} {target : Call} {rest : target.Answer → Py A} {trace : List signature.Event}
    {outcome : Except Exc A} (run : Runs openMachine (call target >>= rest).toProgram () trace outcome ()) :
    ∃ answer tail, trace = ⟨Effect.call target, answer⟩ :: tail ∧ Runs openMachine (rest answer).toProgram () tail outcome () := by
  change Runs openMachine (.perform (Effect.call target) fun answer => (rest answer).toProgram) () trace outcome () at run
  cases run with
  | perform move later => exact ⟨_, _, rfl, later⟩

/-- The opaque boundary accepts an operator whom its authority accepts. -/
theorem opaqueBoundary_accepts (submission : Submission) : Accepts submission EntityAuth.opaqueBoundary := by
  intro assistant currentRevision _ trace outcome run heard
  obtain ⟨answer, tail, rfl, later⟩ := runs_call run
  have accepted := heard _ List.mem_cons_self
  cases answer with
  | error exc => cases accepted
  | ok decision =>
      cases later
      exact ⟨decision, rfl, accepted⟩

/-- The HTTP boundary accepts an operator whom its authority accepts. -/
theorem httpEntityAuthBoundary_accepts (submission : Submission) (authEndpoint : String) :
    Accepts submission (EntityAuth.httpEntityAuthBoundary authEndpoint) := by
  intro assistant currentRevision current trace outcome run heard
  have asked : Runs openMachine (EntityAuth.httpAuthorize (EntityAuth.stripSlashes authEndpoint) _ currentRevision
    true).toProgram () trace outcome () := run
  simp only [EntityAuth.httpAuthorize, current, Bool.not_true, Bool.false_eq_true, if_false] at asked
  obtain ⟨answer, tail, rfl, later⟩ := runs_call asked
  have accepted := heard _ List.mem_cons_self
  cases answer with
  | error exc => cases accepted
  | ok response =>
      cases later
      simp only [favours] at accepted
      cases parsed : EntityAuth.parseDecision response with
      | none => simp [parsed] at accepted
      | some decision => exact ⟨decision, by rw [Option.getD_some], by simpa [parsed] using accepted⟩

/-- An unknown approver answers first, and the operator answers after that. -/
def refusalSubmission (approver : String) : Submission := { raceSubmission with approver := approver }

def refusalSubmissions (pid : Pid) : Submission × EntityAuthBoundary :=
  (refusalSubmission (if pid = 0 then "stranger" else "operator"), EntityAuth.opaqueBoundary)

/-- The authority accepts the operator only. -/
def refusalScript : SharedScript := fun pid past target =>
  match target with
  | .authorize submission .. =>
      .ok (if submission.approver = "operator" then ⟨true, "authorized"⟩ else ⟨false, "unauthorized"⟩)
  | other => raceScript pid past other

def refusals (turns : List (Turn Pid)) : Option (Reached signature World Pid (Except Exc SubmissionResult)) :=
  refusalScript.play anyStep
    (fun pid => submitResponse (refusalSubmissions pid).1 (refusalSubmissions pid).2) raceBoard turns

/-- The events of the process all favour its submission. -/
def favouredBy (pid : Pid) (reached : Reached signature World Pid (Except Exc SubmissionResult)) : Bool :=
  (eventsOf pid reached.history).all fun event => favours (refusalSubmissions pid).1 event.1 event.2

theorem favoured_of_favouredBy {pid : Pid} {reached : Reached signature World Pid (Except Exc SubmissionResult)}
    (favoured : favouredBy pid reached = true) (event : signature.Event) (member : .act pid event ∈ reached.history) :
    favours (refusalSubmissions pid).1 event.1 event.2 = true :=
  List.all_eq_true.mp favoured event ((mem_eventsOf_iff pid event _).mpr member)

end Cordboard.ApprovalInbox
