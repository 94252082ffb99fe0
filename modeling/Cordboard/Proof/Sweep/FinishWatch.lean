import Cordboard.Effects.Watch
import Cordboard.Proof.Frame
import Cordboard.Proof.Stores

namespace Cordboard.Finish
open Data Effects PendingCompletions Router

/-- The observed successes wait for their cascades. The sweep is finishing one of them from the write of the
pending completions until `route_signal` has returned. -/
structure Phase where
  waiting : List (Pair × String)
  succeeded : Bool
  finishing : Bool

def next (phase : Phase) : (op : Effect) → op.Answer → Phase
  | .note (.observed deployment threadId invocationId .succeeded), _ =>
      ⟨((deployment, threadId), invocationId) :: phase.waiting, true, false⟩
  | .note (.observed ..), _ => ⟨phase.waiting, false, false⟩
  | .note (.cascaded deployment threadId), _ =>
      ⟨phase.waiting.filter fun success => success.1 ≠ (deployment, threadId), false, false⟩
  | .write .pending _, _ => ⟨phase.waiting, phase.succeeded, phase.succeeded⟩
  | _, _ => phase

/-- The texts of the Rule are not blank. -/
def namedRule (rule : Rule) : Bool := !blank rule.assistant && !blank rule.connection

/-- The texts of the entry are not blank. -/
def namedEntry (entry : PendingEntry) : Bool :=
  !blank entry.assistant && !blank entry.subject && !blank entry.invocationId

/-- Each identity of the Run is absent or not blank. -/
def namedResult (result : ExecuteResult) : Bool :=
  result.runId = "" || (!blank result.runId && (result.threadId = "" || !blank result.threadId))

/-- The file is readable and its Rules have their texts. -/
def namedRules (file : File (List Rule)) : Bool :=
  match decode .rules file with
  | .ok rules => rules.all namedRule
  | .error _ => false

/-- The file is readable and its logical Runs have their texts. -/
def namedRuns (file : File (Dict String (Dict String LogicalRun))) : Bool :=
  match decode .continuity file with
  | .ok data => data.items.all fun item => item.2.items.all fun thread => !blank thread.2.runId
  | .error _ => false

/-- The operation answers in a way that `route_signal` can handle. -/
def handled : (op : Effect) → op.Answer → Bool
  | .read .rules, file => namedRules file
  | .read .continuity, file => namedRuns file
  | .read .connections, _ => true
  | .read .unmatched, file => file ≠ .unreadable .wrongShape
  | .read store, file => (decode store file).isOk
  | .call (.launch ..), .error exc => exc.kind = .os
  | .call (.execute ..), .error exc => exc.isValueError || exc.isRuntimeError
  | .call (.execute ..), .ok result => namedResult result
  | _, _ => true

/-- A cascade overwrites no tracked entry, an observed success has its texts, and nothing fails while the sweep is
finishing it. -/
def meets (phase : Phase) (op : Effect) (answer : op.Answer) : Bool :=
  (!phase.finishing || handled op answer) &&
    match op with
    | .note (.pendingChanged _ _ (.recorded old _)) => old = none
    | .note (.pendingChanged _ _ (.resolved old)) => !phase.succeeded || namedEntry old
    | _ => true

/-- The entry of each waiting success is still tracked with its invocation. -/
def Tracked (board : Board) (waiting : List (Pair × String)) : Prop :=
  ∀ success ∈ waiting, ∃ entry, (board .pending).find? success.1 = some entry ∧ entry.invocationId = success.2

/-- This watch follows the observed successes of one sweep. -/
abbrev watch : Watch boardMachine where
  Phase := Phase
  next := next
  meets _ phase op answer := meets phase op answer = true
  safe board phase := phase.finishing = false → Tracked board phase.waiting

/-- The files change, but each tracked entry stays. -/
def Retains (before after : Board) : Prop :=
  ∀ pair entry, (before .pending).find? pair = some entry → (after .pending).find? pair = some entry

/-- The watch is in the middle of a success. -/
def Finishing (state : Board × Phase) : Prop := state.2.succeeded = true ∧ state.2.finishing = true

/-- The program ends so while the sweep is finishing a success, and it keeps each tracked entry. -/
def Ends {A : Type} (program : Py A) (good : Except Exc A → Prop) : Prop :=
  ∀ state, Finishing state → Fallible.wp watch.along program (fun _ outcome after =>
    (after.2 = state.2 ∧ Retains state.1 after.1) ∧ good outcome) state

/-- The program returns such a value while the sweep is finishing a success, and it keeps each tracked entry. -/
abbrev Delivers {A : Type} (program : Py A) (returned : A → Prop) : Prop :=
  Ends program fun outcome => ∃ value, outcome = .ok value ∧ returned value

section
variable {A B : Type}

theorem Retains.refl (board : Board) : Retains board board := fun _ _ present => present

theorem Retains.trans {first second third : Board} (one : Retains first second) (two : Retains second third) :
    Retains first third := fun pair entry present => two pair entry (one pair entry present)

/-- A finishing process may stop anywhere. -/
theorem safe_of_finishing {state : Board × Phase} (finishing : Finishing state) : watch.safe state.1 state.2 := by
  intro settled
  rw [finishing.2] at settled
  cases settled

theorem ends_ofExcept (outcome : Except Exc A) {good : Except Exc A → Prop} (ended : good outcome) :
    Ends (Fallible.ofExcept outcome) good := by
  intro state _
  rw [Fallible.wp_ofExcept]
  exact ⟨⟨rfl, Retains.refl _⟩, ended⟩

/-- The rest of the program runs only after a value. -/
theorem Ends.bind {program : Py A} {rest : A → Py B} {first : Except Exc A → Prop} {second : Except Exc B → Prop}
    (ends : Ends program first) (returned : ∀ value, first (.ok value) → Ends (rest value) second)
    (raised : ∀ exc, first (.error exc) → second (.error exc)) : Ends (program >>= rest) second := by
  intro state finishing
  apply Fallible.wp_seq (ends state finishing)
  · rintro _ value middle ⟨⟨same, kept⟩, good⟩
    have still : Finishing middle := by rwa [Finishing, same]
    apply Fallible.wp_mono (returned value good middle still)
    rintro _ outcome after ⟨⟨equal, retained⟩, ended⟩
    exact ⟨⟨equal.trans same, kept.trans retained⟩, ended⟩
  · rintro _ exc _ ⟨kept, failed⟩
    exact ⟨kept, raised exc failed⟩

/-- A caught program delivers its outcome. -/
theorem Ends.attempt {program : Py A} {good : Except Exc A → Prop} (ends : Ends program good) :
    Delivers program.attempt good := by
  intro state finishing
  rw [Fallible.wp_attempt]
  apply Fallible.wp_mono (ends state finishing)
  rintro _ outcome after ⟨kept, ended⟩
  exact ⟨kept, outcome, rfl, ended⟩

theorem delivers_pure {value : A} {returned : A → Prop} (good : returned value) :
    Delivers (pure value) returned :=
  fun _ _ => ⟨⟨rfl, Retains.refl _⟩, value, rfl, good⟩

theorem Delivers.bind {program : Py A} {rest : A → Py B} {first : A → Prop} {good : Except Exc B → Prop}
    (delivers : Delivers program first) (later : ∀ value, first value → Ends (rest value) good) :
    Ends (program >>= rest) good := by
  apply Ends.bind delivers
  · rintro _ ⟨value, same, known⟩
    obtain rfl := Except.ok.inj same
    exact later _ known
  · rintro exc ⟨_, raised, _⟩
    cases raised

end

/-- An operation outside the pending completions and the knowledge keeps the phase. -/
theorem next_neutral {op : Effect} (pending : op.area ≠ .store .pending) (knowledge : op.area ≠ .knowledge)
    (phase : Phase) (answer : op.Answer) : next phase op answer = phase := by
  cases op with
  | write store data => cases store <;> first | rfl | exact absurd rfl pending
  | note point => cases point <;> first | rfl | exact absurd rfl knowledge
  | _ => rfl

/-- One handled operation delivers its answer. -/
theorem delivers_request {op : Effect} (phase : ∀ before answer, next before op answer = before)
    (quiet : op.writes .pending = false) {returned : op.Answer → Prop}
    (good : ∀ answer, handled op answer = true → returned answer) :
    Delivers (@Fallible.request signature Exc op) returned := by
  intro state finishing
  refine ⟨⟨trivial, safe_of_finishing finishing⟩, ?_⟩
  rintro answer after ⟨move, moved, met⟩
  refine ⟨⟨moved.trans (phase _ _), ?_⟩, answer, rfl, good answer ?_⟩
  · intro pair entry present
    rwa [boardStep_frame move quiet]
  · change meets state.2 op answer = true at met
    unfold meets at met
    simp only [finishing.2, Bool.not_true, Bool.false_or, Bool.and_eq_true] at met
    exact met.1

theorem delivers_note {point : Note} (phase : ∀ before, next before (.note point) () = before) :
    Delivers (note point) fun _ => True :=
  delivers_request (fun before _ => phase before) rfl fun _ _ => trivial

theorem delivers_write {store : Store} (other : store ≠ .pending) (data : store.Data) :
    Delivers (writeAtomic store data) fun _ => True := by
  have phase (before : Phase) (answer : Unit) :
      next before (.write store (store.sorted data)) answer = before := by
    cases store <;> first | rfl | exact absurd rfl other
  exact @delivers_request (.write store (store.sorted data)) phase (decide_eq_false other) _ fun _ _ => trivial

/-- A handled read decodes, and its data has this property. -/
theorem delivers_load (store : Store) {good : store.Data → Prop}
    (decodes : ∀ file, handled (.read store) file = true → ∃ data, decode store file = .ok data ∧ good data) :
    Delivers (load store) good := by
  have read : Delivers (readFile store) fun file => ∃ data, decode store file = .ok data ∧ good data :=
    delivers_request (fun before _ => by cases store <;> rfl) rfl decodes
  refine read.bind ?_
  rintro file ⟨data, decoded, known⟩
  rw [decoded]
  exact delivers_pure known

theorem ok_of_isOk {A : Type} {outcome : Except Exc A} (returned : outcome.isOk = true) :
    ∃ value, outcome = .ok value ∧ True := by
  cases outcome with
  | ok value => exact ⟨value, rfl, trivial⟩
  | error exc => cases returned

theorem delivers_whenever {condition : Bool} {body : Py Unit} (delivers : Delivers body fun _ => True) :
    Delivers (whenever condition body) fun _ => True := by
  cases condition with
  | false => exact delivers_pure trivial
  | true => exact delivers

/-- Texts that are not blank pass their check. -/
theorem delivers_requireTexts {kind : ExcKind} {fields : List (String × String)}
    (named : ∀ field ∈ fields, blank field.2 = false) : Delivers (requireTexts kind fields) fun _ => True := by
  rw [requireTexts_eq]
  have none : fields.find? (fun field => blank field.2) = none := by
    rw [List.find?_eq_none]
    intro field member
    simp [named field member]
  rw [checkTexts, none]
  exact delivers_pure trivial

theorem delivers_locked {A : Type} {file : LockFile} {body : Py A} {returned : A → Prop}
    (delivers : Delivers body returned) : Delivers (locked file body) returned := by
  have takes : Delivers (lock file) fun _ => True := delivers_request (fun _ _ => rfl) rfl fun _ _ => trivial
  have frees : Delivers (unlock file) fun _ => True := delivers_request (fun _ _ => rfl) rfl fun _ _ => trivial
  refine takes.bind fun _ _ => delivers.attempt.bind ?_
  rintro outcome ⟨value, rfl, good⟩
  exact frees.bind fun _ _ => delivers_pure good

/-- The stores without a further condition deliver their data. -/
theorem delivers_plain (store : Store) (plain : ∀ file, handled (.read store) file = (decode store file).isOk) :
    Delivers (load store) fun _ => True := by
  apply delivers_load
  intro file good
  rw [plain file] at good
  exact ok_of_isOk good

section
variable {now : Time}

theorem recordUnmatched_delivers (signal : Signal) (reason : String) :
    Delivers (recordUnmatched signal reason) fun _ => True := by
  have read : Delivers (readFile .unmatched) fun file => file ≠ .unreadable .wrongShape :=
    delivers_request (fun _ _ => rfl) rfl fun _ good => of_decide_eq_true good
  apply read.bind
  intro file shaped
  dsimp only
  split
  · exact delivers_write (by decide) _
  · exact delivers_write (by decide) _
  · exact absurd rfl shaped
  · exact delivers_write (by decide) _

theorem concurrencyKey_delivers {assistant subject : String} (named : blank assistant = false)
    (about : blank subject = false) : Delivers (Concurrency.key assistant subject) fun _ => True := by
  refine (delivers_requireTexts ?_).bind fun _ _ => delivers_pure trivial
  simp [named, about]

theorem tryClaim_delivers {assistant subject : String} (named : blank assistant = false)
    (about : blank subject = false) (staleAfter : Time) (holder : Holder) :
    Delivers (Concurrency.tryClaim assistant subject now staleAfter holder) fun _ => True := by
  apply (concurrencyKey_delivers named about).bind
  intro key _
  apply delivers_locked
  apply Delivers.bind (delivers_plain .concurrency fun _ => rfl)
  intro data _
  split
  · exact delivers_pure trivial
  · exact (delivers_note fun _ => rfl).bind fun _ _ => (delivers_write (by decide) _).bind fun _ _ => delivers_pure trivial

theorem release_delivers {assistant subject : String} (named : blank assistant = false)
    (about : blank subject = false) (holder : Holder) :
    Delivers (Concurrency.release assistant subject holder) fun _ => True := by
  apply (concurrencyKey_delivers named about).bind
  intro key _
  apply delivers_locked
  apply Delivers.bind (delivers_plain .concurrency fun _ => rfl)
  intro data _
  split
  · exact (delivers_note fun _ => rfl).bind fun _ _ => delivers_write (by decide) _
  · exact delivers_note fun _ => rfl

theorem recordStartFailed_delivers (deployment : String) (data : Dict String LifecycleRecord) (pid : Option Nat)
    (error : String) :
    Delivers (DeploymentLifecycle.recordStartFailed deployment data pid now error) fun _ => True :=
  (delivers_write (by decide) _).bind fun _ _ => delivers_pure trivial

/-- Only an operating system error may end a launch. -/
theorem launchDeployment_delivers (deployment : String) (connection : Connection)
    (data : Dict String LifecycleRecord) (healthTimeout : Time) (holder : Holder) :
    Delivers (DeploymentLifecycle.launchDeployment deployment connection data now healthTimeout holder)
      fun _ => True := by
  have launch : Delivers (call (.launch deployment connection.launch))
      fun answer => ∀ exc, answer = .error exc → exc.kind = .os := by
    apply delivers_request (fun _ _ => rfl) rfl
    intro answer good exc failed
    subst failed
    exact of_decide_eq_true good
  have probe : Delivers (call (.healthCheck connection.endpoint healthTimeout)) fun _ => True :=
    delivers_request (fun _ _ => rfl) rfl fun _ _ => trivial
  apply launch.bind
  intro launched good
  cases launched with
  | error exc =>
      dsimp only
      rw [if_pos (good exc rfl)]
      exact recordStartFailed_delivers _ _ _ _
  | ok pid =>
      apply probe.bind
      intro healthy _
      split
      · exact (delivers_write (by decide) _).bind fun _ _ =>
          (delivers_note fun _ => rfl).bind fun _ _ => delivers_pure trivial
      · exact recordStartFailed_delivers _ _ _ _

theorem ensureStarted_delivers (deployment : String) (connection : Connection) (healthTimeout : Time)
    (holder : Holder) :
    Delivers (DeploymentLifecycle.ensureStarted deployment connection now healthTimeout holder) fun _ => True := by
  unfold DeploymentLifecycle.ensureStarted
  split
  · exact delivers_pure trivial
  have alive : Delivers (call (.isAlive connection.endpoint)) fun _ => True :=
    delivers_request (fun _ _ => rfl) rfl fun _ _ => trivial
  apply Delivers.bind (delivers_plain .lifecycle fun _ => rfl)
  intro data _
  have verified : Delivers (DeploymentLifecycle.verifiedRecord connection.endpoint (data.get? deployment))
      fun _ => True := by
    unfold DeploymentLifecycle.verifiedRecord
    split
    · exact delivers_pure trivial
    · split
      · exact alive.bind fun _ _ => delivers_pure trivial
      · exact delivers_pure trivial
  apply verified.bind
  intro record _
  split
  · exact (delivers_write (by decide) _).bind fun _ _ =>
      (delivers_note fun _ => rfl).bind fun _ _ => delivers_pure trivial
  · exact launchDeployment_delivers _ _ _ _ _

theorem releaseActive_delivers (deployment : String) (connection : Connection) (holder : Holder) :
    Delivers (DeploymentLifecycle.releaseActive deployment connection now holder) fun _ => True := by
  unfold DeploymentLifecycle.releaseActive
  split
  · exact delivers_note fun _ => rfl
  apply Delivers.bind (delivers_plain .lifecycle fun _ => rfl)
  intro data _
  split
  · exact delivers_note fun _ => rfl
  · split
    · exact (delivers_note fun _ => rfl).bind fun _ _ => delivers_write (by decide) _
    · exact delivers_note fun _ => rfl

theorem claim_delivers {signalId : String} (named : blank signalId = false) (retention : Time) :
    Delivers (SignalDedupe.claim signalId now retention) fun _ => True := by
  apply (delivers_requireTexts (by simp [named])).bind
  intro _ _
  apply Delivers.bind (delivers_plain .signalDedupe fun _ => rfl)
  intro stored _
  dsimp only
  split
  all_goals
    exact (delivers_write (by decide) _).bind fun _ _ =>
      (delivers_note fun _ => rfl).bind fun _ _ => delivers_pure trivial

/-- The logical Runs of the continuity file have their texts. -/
def NamedRuns (data : Dict String (Dict String LogicalRun)) : Prop :=
  ∀ deployment threads threadId record, data.get? deployment = some threads → threads.get? threadId = some record →
    blank record.runId = false

theorem loadContinuity_delivers : Delivers (load .continuity) NamedRuns := by
  apply delivers_load
  intro file good
  have named : namedRuns file = true := good
  unfold namedRuns at named
  cases decoded : decode .continuity file with
  | error exc =>
      rw [decoded] at named
      cases named
  | ok data =>
      rw [decoded] at named
      refine ⟨data, rfl, ?_⟩
      intro deployment threads threadId record stored present
      have outer := List.all_eq_true.mp named _ ((Dict.get?_eq_some_iff data _ _).mp stored)
      have inner := List.all_eq_true.mp outer _ ((threads.get?_eq_some_iff _ _).mp present)
      simpa using inner

theorem recordSubmission_delivers {deployment threadId apiRunId : String} (alias_ : blank deployment = false)
    (thread : blank threadId = false) (run : blank apiRunId = false) :
    Delivers (RunContinuity.recordSubmission deployment threadId apiRunId) fun _ => True := by
  apply (delivers_requireTexts (by simp [alias_, thread, run])).bind
  intro _ _
  apply loadContinuity_delivers.bind
  intro data _
  dsimp only
  split
  · exact (delivers_write (by decide) _).bind fun _ _ => delivers_pure trivial
  · split
    · exact delivers_pure trivial
    · exact (delivers_write (by decide) _).bind fun _ _ => delivers_pure trivial

/-- A record of an untracked pair keeps each other entry. -/
theorem recordPending_delivers {deployment threadId invocationId assistant subject : String}
    (alias_ : blank deployment = false) (thread : blank threadId = false) (run : blank invocationId = false)
    (named : blank assistant = false) (about : blank subject = false) (cascadeDepth : Nat) (concurrencyHeld deploymentHeld : Bool) :
    Delivers (recordPending deployment threadId invocationId assistant subject cascadeDepth concurrencyHeld
      deploymentHeld now) fun _ => True := by
  apply (delivers_requireTexts (by simp [alias_, thread, run, named, about])).bind
  intro _ _
  have checked : checkTexts .pendingCompletion [("deployment alias", deployment), ("thread ID", threadId)] = .ok () := by
    simp [checkTexts, alias_, thread]
  rintro ⟨board, waiting, succeeded, finishing⟩ ⟨rfl, rfl⟩
  have safe (board : Board) : watch.safe board ⟨waiting, true, true⟩ := fun settled => by cases settled
  simp only [Fallible.wp_bind, loadPending, wp_load]
  refine ⟨⟨trivial, safe board⟩, ?_⟩
  rintro file ⟨after, phase⟩ ⟨⟨read, same⟩, moved, met⟩
  obtain rfl : board = after := same.symm
  obtain rfl : file = board .pending := read
  obtain rfl : phase = ⟨waiting, true, true⟩ := moved
  have readable : (decode .pending (board .pending)).isOk = true := by simpa [meets, handled] using met
  obtain ⟨data, decoded, -⟩ := ok_of_isOk readable
  simp only [decoded, Fallible.after_ok, Fallible.wp_bind, wp_key, checked, Except.map, wp_note, wp_writeAtomic]
  refine ⟨⟨trivial, safe board⟩, ?_⟩
  rintro ⟨after, phase⟩ ⟨same, moved, met⟩
  obtain rfl : board = after := Eq.symm same
  obtain rfl : phase = ⟨waiting, true, true⟩ := moved
  have absent : data.get? (deployment, threadId) = none := by simpa [meets, handled] using met
  refine ⟨⟨trivial, safe board⟩, ?_⟩
  rintro ⟨written, phase⟩ ⟨put, moved, -⟩
  obtain rfl : phase = ⟨waiting, true, true⟩ := moved
  refine ⟨⟨trivial, safe written⟩, ?_⟩
  rintro ⟨after, phase⟩ ⟨same, moved, -⟩
  obtain rfl : written = after := Eq.symm same
  obtain rfl : phase = ⟨waiting, true, true⟩ := moved
  refine ⟨⟨rfl, ?_⟩, (), trivial, trivial⟩
  intro pair entry present
  rw [find?_of_decode decoded] at present
  have different : pair ≠ (deployment, threadId) := by
    rintro rfl
    rw [absent] at present
    cases present
  obtain rfl : written = board.put .pending _ := put
  change ((board.put .pending _) .pending).find? pair = some entry
  rw [Board.put_self, File.find?_content, get?_sorted, Dict.get?_set_of_ne data different, present]

end

end Cordboard.Finish
