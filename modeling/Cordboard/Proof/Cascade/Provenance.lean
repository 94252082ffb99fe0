import Cordboard.Construction.Operations
import Cordboard.Proof.Records
import Cordboard.Proof.Watching

namespace Cordboard.Provenance
open Data Effects
open ApprovalInbox (present)
open PendingCompletions (Pair)
open RunContinuity (recordOf)

/-- The submission of a Rule fixes the completion of its Run. The hops lead back to the external Signal. -/
structure Origin where
  run : FinishedRun
  hops : Nat
deriving DecidableEq

/-- An external Signal or the completion of a Run causes the next execution. -/
inductive Cause where
  | external
  | unknown
  | completed (origin : Origin)

/-- A completion adds one hop to those of its Run. -/
def Cause.hops : Cause → Nat
  | .completed origin => origin.hops + 1
  | _ => 0

/-- The completed Run is the one that caused the execution. -/
def Cause.runId : Cause → Option String
  | .completed origin => some origin.run.runId
  | _ => none

/-- An execution is given a depth and a causing Run. -/
structure Execution where
  cascadeDepth : Nat
  causedByRunId : Option String
  cause : Cause

/-- The execution is given the hops and the Run of its true cause. -/
structure Execution.Exact (execution : Execution) : Prop where
  traced : execution.cause ≠ .unknown
  depth : execution.cascadeDepth = execution.cause.hops
  run : execution.causedByRunId = execution.cause.runId

/-- An accepted execution waits for the name of its Thread. -/
structure Accepted where
  assistant : String
  subject : String
  cascadeDepth : Nat
  hops : Nat

/-- The completion that an accepted Run would have. -/
def Accepted.origin (accepted : Accepted) (pair : Pair) (runId : String) : Origin :=
  ⟨⟨runId, accepted.subject, pair.1, accepted.assistant, "success", accepted.cascadeDepth⟩, accepted.hops⟩

/-- The phase knows the origin of each Thread that a Rule has submitted, every execution, and every routed completion
with the origin of its Run. -/
structure Phase where
  cause : Cause
  accepted : Option Accepted
  reported : Option RunInfo
  origins : Pair → Option Origin
  executions : List Execution
  routed : List (FinishedRun × Origin)

/-- The completion of the Thread is a cause with its origin. -/
def Phase.completion (phase : Phase) (pair : Pair) : Cause :=
  match phase.origins pair with
  | some origin => .completed origin
  | none => .unknown

/-- The completion of the Thread causes what follows. -/
def Phase.complete (phase : Phase) (pair : Pair) (state : Learned) : Phase :=
  if state = .succeeded then { phase with cause := phase.completion pair } else phase

/-- The Thread of an accepted execution gets its origin. -/
def Phase.learn (phase : Phase) (pair : Pair) (runId : String) (state : Learned) : Phase :=
  match phase.accepted with
  | some accepted => Phase.complete { phase with
      accepted := none
      origins := Function.update phase.origins pair (some (accepted.origin pair runId)) } pair state
  | none => phase.complete pair state

/-- The phase follows the executions, the Threads, and the completions. -/
def Phase.next (phase : Phase) : (op : Effect) → op.Answer → Phase
  | .call (.execute _ assistant subject _ _ causedByRunId cascadeDepth), answer => { phase with
      executions := ⟨cascadeDepth, causedByRunId, phase.cause⟩ :: phase.executions
      accepted := if answer.isOk then some ⟨assistant, subject, cascadeDepth, phase.cause.hops⟩ else none }
  | .call (.describeRun ..), answer => { phase with reported := answer.toOption }
  | .note (.learned deployment threadId runId state), _ => phase.learn (deployment, threadId) runId state
  | .note (.observed deployment threadId _ state), _ => phase.complete (deployment, threadId) state
  | .note (.routing run), _ =>
      match phase.cause with
      | .completed origin => { phase with routed := (run, origin) :: phase.routed }
      | _ => phase
  | _, _ => phase

/-- A condition limits the resumes of a session. -/
abbrev Limit := Board → Phase → Pair → Prop

/-- Every resume is permitted. -/
def unlimited : Limit := fun _ _ _ => True

/-- The backend names the Run as its Rule did. A tracked entry supplies the Subject and the depth. -/
structure Reports (origin : Origin) (info : RunInfo) (tracked : Bool) : Prop where
  assistant : info.assistantId.getD "" = origin.run.assistant
  subject : info.subject = some origin.run.subject ∨ (present info.subject = false ∧ tracked = true)
  cascadeDepth : tracked = true ∨ origin.run.cascadeDepth = 0

/-- A Thread that a Rule has submitted is recorded, and the backend names its Run, when it is resumed. -/
def Phase.consistent : Limit := fun board phase pair =>
  match phase.origins pair with
  | none => True
  | some origin => (recordOf (board .continuity) pair).isSome ∧
      match phase.reported with
      | none => True
      | some info => Reports origin info ((board .pending).find? pair).isSome

/-- Each execution returns a Thread that the board has never recorded. -/
def meets (limit : Limit) (board : Board) (phase : Phase) : (op : Effect) → op.Answer → Prop
  | .call (.execute ..), .ok result => result.threadId ≠ ""
  | .note (.learned deployment threadId _ _), _ =>
      phase.accepted.isSome → recordOf (board .continuity) (deployment, threadId) = none
  | .note (.resuming deployment threadId _), _ => limit board phase (deployment, threadId)
  | _, _ => True

abbrev watch (limit : Limit) : Watch boardMachine where
  Phase := Phase
  next := Phase.next
  meets := meets limit
  safe _ _ := True

/-- An operation starts with its own cause. -/
def prepare : Operation → Phase → Phase
  | .route .., phase => { phase with cause := .external, accepted := none, reported := none }
  | _, phase => { phase with cause := .unknown, accepted := none, reported := none }

/-- The operations of a session act one after another. -/
abbrev operations (limit : Limit) : Service boardMachine Operation Unit where
  watch := watch limit
  task := Operation.perform
  prepare := prepare

/-- The phase moves in these areas only. -/
def phaseAreas : List Area := [.execution, .knowledge, .cascade, .inspection]

theorem next_neutral {op : Effect} (outside : op.area ∉ phaseAreas) (phase : Phase) (answer : op.Answer) :
    phase.next op answer = phase := by
  simp only [phaseAreas, List.mem_cons, List.not_mem_nil, or_false, not_or] at outside
  cases op with
  | call target =>
      cases target <;> first | rfl | exact absurd rfl outside.1 | exact absurd rfl outside.2.2.2
  | note point =>
      cases point <;> first | rfl | exact absurd rfl outside.2.1 | exact absurd rfl outside.2.2.1
  | _ => rfl

/-- The lens of the phase follows no file. -/
def phaseLens (limit : Limit) : Lens (watch limit) where
  areas := phaseAreas
  stores := []
  covered _ member := by cases member
  neutral phase _ answer outside := next_neutral outside phase answer
  free _ _ := trivial

/-- The lens of the invariant also follows the entries and the Threads. -/
def traceLens (limit : Limit) : Lens (watch limit) where
  areas := .store .pending :: .store .continuity :: phaseAreas
  stores := [.pending, .continuity]
  covered := by simp
  neutral phase _ answer outside :=
    next_neutral (fun member => outside (List.mem_cons_of_mem _ (List.mem_cons_of_mem _ member))) phase answer
  free _ _ := trivial

/-- The lens of the phase lies outside the stores. -/
theorem store_outside (limit : Limit) (store : Store) : ∀ area ∈ [Area.store store], area ∉ (phaseLens limit).areas := by
  simp [phaseLens, phaseAreas]

/-- Nothing is asked where an operation stops. -/
theorem free (limit : Limit) (board : Board) (phase : Phase) : (watch limit).safe board phase := trivial

/-- The runs of a session. -/
abbrev tracing (limit : Limit) : Machine signature (Board × Phase) := (watch limit).along

/-- The entry names the completion of its Run. -/
structure Agrees (entry : PendingEntry) (run : FinishedRun) : Prop where
  assistant : entry.assistant = run.assistant
  subject : entry.subject = run.subject
  cascadeDepth : entry.cascadeDepth = run.cascadeDepth

/-- An entry belongs to a recorded Thread, and it agrees with the origin of its Run. In a strict session each entry has
an origin. -/
structure Sound (strict : Prop) (board : Board) (origins : Pair → Option Origin) (pair : Pair) (entry : PendingEntry) :
    Prop where
  anchored : (recordOf (board .continuity) pair).isSome
  agrees : ∀ origin, origins pair = some origin → Agrees entry origin.run
  known : strict → (origins pair).isSome

/-- The completion of an origin belongs to its Thread. -/
structure Placed (strict : Prop) (board : Board) (pair : Pair) (origin : Origin) : Prop where
  connection : origin.run.connection = pair.1
  status : origin.run.status = "success"
  depth : strict → origin.run.cascadeDepth = origin.hops
  logical : ∀ record, recordOf (board .continuity) pair = some record → record.runId = origin.run.runId

/-- Each origin is placed, and each entry is sound, also in the snapshot of a sweep. Each routed completion is the one
of its origin, and in a strict session each execution was given its true cause. -/
structure Traced (strict : Prop) (items : List (Pair × PendingEntry)) (state : Board × Phase) : Prop where
  placed : ∀ pair origin, state.2.origins pair = some origin → Placed strict state.1 pair origin
  entries : ∀ pair entry, (state.1 .pending).find? pair = some entry →
    Sound strict state.1 state.2.origins pair entry
  items : ∀ item ∈ items, Sound strict state.1 state.2.origins item.1 item.2
  executions : strict → ∀ execution ∈ state.2.executions, execution.Exact
  routed : ∀ routed ∈ state.2.routed, routed.1 = routed.2.run

/-- The Signal carries the completion that causes what follows. -/
def Suits (strict : Prop) (phase : Phase) : Signal → Prop
  | .external .. => phase.cause = .external
  | .finished run => (∃ origin, phase.cause = .completed origin ∧ origin.run = run ∧
      (strict → origin.hops = run.cascadeDepth)) ∨ (¬ strict ∧ phase.cause = .unknown)

section
variable {strict : Prop} {items : List (Pair × PendingEntry)} {board after : Board} {phase : Phase}

/-- A route adds to the snapshot of no sweep. -/
theorem Traced.drop {item : Pair × PendingEntry} {state : Board × Phase} (traced : Traced strict (item :: items) state) :
    Traced strict items state :=
  ⟨traced.placed, traced.entries, fun other member => traced.items other (List.mem_cons_of_mem _ member),
    traced.executions, traced.routed⟩

/-- The invariant follows the entries, the Threads, and the phase. -/
theorem Traced.still (traced : Traced strict items (board, phase)) (entries : after .pending = board .pending)
    (threads : after .continuity = board .continuity) : Traced strict items (after, phase) where
  placed pair origin known := by
    have placed := traced.placed pair origin known
    exact ⟨placed.connection, placed.status, placed.depth, by simpa only [threads] using placed.logical⟩
  entries pair entry present := by
    rw [show (after, phase).1 .pending = board .pending from entries] at present
    have sound := traced.entries pair entry present
    exact ⟨by simpa only [threads] using sound.anchored, sound.agrees, sound.known⟩
  items item member := by
    have sound := traced.items item member
    exact ⟨by simpa only [threads] using sound.anchored, sound.agrees, sound.known⟩
  executions := traced.executions
  routed := traced.routed

/-- A program outside the areas of the trace keeps what follows from the entries, the Threads, and the phase. -/
theorem traced_aside {limit : Limit} {A : Type} {areas : List Area} {program : Py A} (within : Within areas program)
    (disjoint : ∀ area ∈ areas, area ∉ (traceLens limit).areas) (holds : Phase → Prop) :
    Fallible.Keeps (tracing limit) (fun state => Traced strict items state ∧ holds state.2) program := by
  apply (traceLens limit).keeps_within ?_ within disjoint
  rintro ⟨before, phase⟩ ⟨after, same⟩ ⟨kept, moved⟩ ⟨traced, held⟩
  obtain rfl : same = phase := moved
  exact ⟨traced.still (kept .pending (by simp [traceLens])) (kept .continuity (by simp [traceLens])), held⟩

/-- A completion moves the cause only. -/
theorem Traced.complete (traced : Traced strict items (board, phase)) (pair : Pair) (state : Learned) :
    Traced strict items (board, phase.complete pair state) := by
  unfold Phase.complete
  split
  · exact ⟨traced.placed, traced.entries, traced.items, traced.executions, traced.routed⟩
  · exact traced

/-- The Thread of an accepted execution gets its origin before it is recorded. -/
theorem Traced.learn (traced : Traced strict items (board, phase)) {accepted : Accepted}
    (accepting : phase.accepted = some accepted) (hops : strict → accepted.cascadeDepth = accepted.hops) {pair : Pair}
    (fresh : recordOf (board .continuity) pair = none) (runId : String) (state : Learned) :
    Traced strict items (board, phase.learn pair runId state) := by
  unfold Phase.learn
  rw [accepting]
  apply Traced.complete
  have keeps {other : Pair} {entry : PendingEntry} (sound : Sound strict board phase.origins other entry) :
      Sound strict board (Function.update phase.origins pair (some (accepted.origin pair runId))) other entry := by
    have different : other ≠ pair := by
      rintro rfl
      have anchored := sound.anchored
      rw [fresh] at anchored
      cases anchored
    refine ⟨sound.anchored, ?_, ?_⟩
    · simpa only [Function.update_of_ne different] using sound.agrees
    · simpa only [Function.update_of_ne different] using sound.known
  refine ⟨?_, fun other entry present => keeps (traced.entries other entry present),
    fun item member => keeps (traced.items item member), traced.executions, traced.routed⟩
  intro other origin known
  by_cases same : other = pair
  · subst other
    simp only [Function.update_self, Option.some.injEq] at known
    subst known
    refine ⟨rfl, rfl, hops, ?_⟩
    intro record present
    rw [show recordOf (board .continuity) pair = none from fresh] at present
    cases present
  · simp only [Function.update_of_ne same] at known
    have placed := traced.placed other origin known
    exact ⟨placed.connection, placed.status, placed.depth, placed.logical⟩

/-- A Thread that joins its logical Run keeps the invariant. -/
theorem Traced.join (traced : Traced strict items (board, phase)) {pair : Pair} {apiRunId : String}
    (first : ∀ origin, phase.origins pair = some origin → recordOf (board .continuity) pair = none →
      origin.run.runId = apiRunId) (entries : after .pending = board .pending)
    (joins : ∀ other, recordOf (after .continuity) other =
      if other = pair then some (RunContinuity.joined (recordOf (board .continuity) other) apiRunId)
      else recordOf (board .continuity) other) : Traced strict items (after, phase) := by
  have keeps {other : Pair} {entry : PendingEntry} (sound : Sound strict board phase.origins other entry) :
      Sound strict after phase.origins other entry := by
    refine ⟨?_, sound.agrees, sound.known⟩
    rw [joins other]
    split
    · rfl
    · exact sound.anchored
  refine ⟨?_, ?_, fun item member => keeps (traced.items item member), traced.executions, traced.routed⟩
  · intro other origin known
    have placed := traced.placed other origin known
    refine ⟨placed.connection, placed.status, placed.depth, ?_⟩
    intro record present
    rw [show recordOf ((after, phase).1 .continuity) other = _ from joins other] at present
    split at present
    · rename_i same
      subst other
      cases old : recordOf (board .continuity) pair with
      | none =>
          rw [old] at present
          obtain rfl := Option.some.inj present
          exact (first origin known old).symm
      | some stored =>
          rw [old] at present
          obtain rfl := Option.some.inj present
          rw [RunContinuity.joined_runId]
          exact placed.logical stored old
    · exact placed.logical record present
  · intro other entry present
    rw [show (after, phase).1 .pending = board .pending from entries] at present
    exact keeps (traced.entries other entry present)

/-- A change of the entries keeps the invariant when each new entry is sound. -/
theorem Traced.change (traced : Traced strict items (board, phase)) (threads : after .continuity = board .continuity)
    (entries : ∀ pair entry, (after .pending).find? pair = some entry →
      (board .pending).find? pair = some entry ∨ Sound strict board phase.origins pair entry) :
    Traced strict items (after, phase) := by
  have keeps {pair : Pair} {entry : PendingEntry} (sound : Sound strict board phase.origins pair entry) :
      Sound strict after phase.origins pair entry :=
    ⟨by simpa only [threads] using sound.anchored, sound.agrees, sound.known⟩
  refine ⟨?_, ?_, fun item member => keeps (traced.items item member), traced.executions, traced.routed⟩
  · intro pair origin known
    have placed := traced.placed pair origin known
    exact ⟨placed.connection, placed.status, placed.depth, by simpa only [threads] using placed.logical⟩
  · intro pair entry present
    rcases entries pair entry present with stored | sound
    · exact keeps (traced.entries pair entry stored)
    · exact keeps sound

end

section
variable {strict : Prop} {items : List (Pair × PendingEntry)} {limit : Limit} {board : Board} {phase : Phase}

/-- A submission is anchored to its Thread. -/
theorem recordSubmission_traced (traced : Traced strict items (board, phase)) {deployment threadId apiRunId : String}
    (first : ∀ origin, phase.origins (deployment, threadId) = some origin →
      recordOf (board .continuity) (deployment, threadId) = none → origin.run.runId = apiRunId) :
    Fallible.wp (tracing limit) (RunContinuity.recordSubmission deployment threadId apiRunId)
      (fun _ outcome state => Traced strict items state ∧ state.2 = phase ∧ state.1 .pending = board .pending ∧
        ∀ runId, outcome = .ok runId → ∃ record,
          recordOf (state.1 .continuity) (deployment, threadId) = some record ∧ record.runId = runId)
      (board, phase) := by
  have joins : Fallible.wp boardMachine (RunContinuity.recordSubmission deployment threadId apiRunId)
      (fun _ outcome after => Traced strict items (after, phase) ∧ after .pending = board .pending ∧
        ∀ runId, outcome = .ok runId → ∃ record,
          recordOf (after .continuity) (deployment, threadId) = some record ∧ record.runId = runId) board := by
    apply RunContinuity.recordSubmission_ends
    · intro data after _ _ others joined _
      have entries : after .pending = board .pending := others .pending (by decide)
      refine ⟨traced.join first entries joined, entries, ?_⟩
      rintro runId same
      obtain rfl := Except.ok.inj same
      exact ⟨_, by rw [joined, if_pos rfl], rfl⟩
    · refine fun exc _ => ⟨traced, rfl, ?_⟩
      rintro runId same
      cases same
  apply Fallible.wp_mono ((phaseLens limit).wp_beside (RunContinuity.recordSubmission_inside _ _ _)
    (store_outside limit _) joins phase)
  rintro _ outcome ⟨after, _⟩ ⟨⟨joined, entries, known⟩, rfl, _⟩
  exact ⟨joined, rfl, entries, known⟩

/-- A sound entry may be recorded. -/
theorem recordPending_traced (traced : Traced strict items (board, phase)) (entry : PendingEntry)
    (sound : blank entry.assistant = false → Sound strict board phase.origins (entry.deployment, entry.threadId) entry) :
    Fallible.wp (tracing limit) (PendingCompletions.recordPending entry.deployment entry.threadId entry.invocationId
      entry.assistant entry.subject entry.cascadeDepth entry.concurrencyHeld entry.deploymentHeld entry.recordedAt)
      (fun _ _ state => Traced strict items state ∧ state.2 = phase) (board, phase) := by
  have records : Fallible.wp boardMachine (PendingCompletions.recordPending entry.deployment entry.threadId
      entry.invocationId entry.assistant entry.subject entry.cascadeDepth entry.concurrencyHeld entry.deploymentHeld
      entry.recordedAt) (fun _ _ after => Traced strict items (after, phase)) board := by
    apply PendingCompletions.recordPending_ends
    · intro data checked decoded
      have named : blank entry.assistant = false := checkTexts_ok checked ("assistant", entry.assistant) (by simp)
      apply traced.change (board.put_of_ne (by decide) _)
      intro pair stored present
      rw [PendingCompletions.find?_recorded decoded] at present
      split at present
      · rename_i same
        subst same
        obtain rfl := Option.some.inj present
        exact .inr (sound named)
      · exact .inl present
    · exact fun _ _ => traced
  apply Fallible.wp_mono ((phaseLens limit).wp_beside (PendingCompletions.recordPending_inside _ _ _ _ _ _ _ _ _)
    (store_outside limit _) records phase)
  rintro _ _ ⟨after, _⟩ ⟨recorded, rfl, _⟩
  exact ⟨recorded, rfl⟩

/-- An entry may leave. -/
theorem resolvePending_traced (traced : Traced strict items (board, phase)) (deployment threadId : String) :
    Fallible.wp (tracing limit) (PendingCompletions.resolvePending deployment threadId)
      (fun _ _ state => Traced strict items state ∧ state.2 = phase) (board, phase) := by
  have resolves : Fallible.wp boardMachine (PendingCompletions.resolvePending deployment threadId)
      (fun _ _ after => Traced strict items (after, phase)) board := by
    apply PendingCompletions.resolvePending_ends
    · exact fun _ _ _ _ => traced
    · intro data entry _ decoded _
      apply traced.change (board.put_of_ne (by decide) _)
      intro pair stored present
      rw [PendingCompletions.find?_resolved decoded] at present
      split at present
      · cases present
      · exact .inl present
    · exact fun _ _ => traced
  apply Fallible.wp_mono ((phaseLens limit).wp_beside (PendingCompletions.resolvePending_inside _ _)
    (store_outside limit _) resolves phase)
  rintro _ _ ⟨after, _⟩ ⟨resolved, rfl, _⟩
  exact ⟨resolved, rfl⟩

/-- An update keeps the names of the entry. -/
theorem updatePending_traced (traced : Traced strict items (board, phase)) (deployment threadId : String)
    (invocationId : Option String) (concurrencyHeld deploymentHeld : Option Bool) (now : Time) :
    Fallible.wp (tracing limit)
      (PendingCompletions.updatePending deployment threadId invocationId concurrencyHeld deploymentHeld now)
      (fun _ _ state => Traced strict items state ∧ state.2 = phase) (board, phase) := by
  have updates : Fallible.wp boardMachine
      (PendingCompletions.updatePending deployment threadId invocationId concurrencyHeld deploymentHeld now)
      (fun _ _ after => Traced strict items (after, phase)) board := by
    apply PendingCompletions.updatePending_ends
    · exact fun _ _ _ => traced
    · intro data entry decoded found
      apply traced.change (board.put_of_ne (by decide) _)
      intro pair stored present
      rw [PendingCompletions.find?_recorded decoded] at present
      split at present
      · rename_i same
        subst same
        obtain rfl := Option.some.inj present
        have sound := traced.entries (deployment, threadId) entry
          ((PendingCompletions.find?_of_decode decoded _).trans found)
        refine .inr ⟨sound.anchored, ?_, sound.known⟩
        intro origin known
        have agrees := sound.agrees origin known
        exact ⟨agrees.assistant, agrees.subject, agrees.cascadeDepth⟩
      · exact .inl present
    · exact fun _ => traced
  apply Fallible.wp_mono ((phaseLens limit).wp_beside (PendingCompletions.updatePending_inside _ _ _ _ _ _)
    (store_outside limit _) updates phase)
  rintro _ _ ⟨after, _⟩ ⟨updated, rfl, _⟩
  exact ⟨updated, rfl⟩

end

end Cordboard.Provenance
