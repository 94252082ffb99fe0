import Cordboard.Construction.ApprovalInbox

namespace Cordboard
open Data Effects

/-- Each effect belongs to one store or to one kind of outside service. -/
inductive Area where
  | store (store : Store)
  | execution
  | inspection
  | observation
  | transport
  | resumption
  | authority
  | knowledge
  | handover
  | cascade
deriving DecidableEq

/-- Only a release on behalf of an entry hands over the claims of another call. -/
def Holder.area (store : Store) : Holder → Area
  | .entry .. => .handover
  | _ => .store store

def Note.area : Note → Area
  | .activityTaken .. => .store .lifecycle
  | .activityReleased _ holder _ => holder.area .lifecycle
  | .concurrencyTaken .. => .store .concurrency
  | .concurrencyReleased _ _ holder _ => holder.area .concurrency
  | .concurrencyRenewed .. => .store .concurrency
  | .signalClaimed .. => .store .signalDedupe
  | .executing .. => .execution
  | .responseClaimed .. => .store .responseDedupe
  | .resuming .. => .resumption
  | .pendingChanged .. => .store .pending
  | .pendingReturned .. => .store .pending
  | .learned .. => .knowledge
  | .observed .. => .knowledge
  | .cascaded .. => .knowledge
  | .routing _ => .cascade

def Call.area : Call → Area
  | .isAlive .. => .store .lifecycle
  | .launch .. => .store .lifecycle
  | .healthCheck .. => .store .lifecycle
  | .stop .. => .store .lifecycle
  | .execute .. => .execution
  | .describeRun .. => .inspection
  | .lastPoll .. => .inspection
  | .threadState .. => .observation
  | .submitResume .. => .transport
  | .authorize .. => .authority
  | .postAuthorize .. => .authority
  | .halt .. => .store .expiry

def Effect.area : Effect → Area
  | .read store => .store store
  | .write store _ => .store store
  | .lock .concurrency => .store .concurrency
  | .lock .responseDedupe => .store .responseDedupe
  | .unlock .concurrency => .store .concurrency
  | .unlock .responseDedupe => .store .responseDedupe
  | .call target => target.area
  | .note point => point.area

/-- The program stays inside these areas. -/
def Within {A : Type} (areas : List Area) (program : Py A) : Prop :=
  Fallible.Uses (fun effect : Effect => effect.area ∈ areas) program

/-- The program stays inside one area. -/
abbrev Inside {A : Type} (area : Area) (program : Py A) : Prop := Within [area] program

section
variable {A B : Type} {areas : List Area}

theorem Within.bind {program : Py A} {rest : A → Py B} (first : Within areas program)
    (second : ∀ value, Within areas (rest value)) : Within areas (program >>= rest) :=
  Fallible.Uses.bind first second

theorem Within.attempt {program : Py A} (within : Within areas program) :
    Within areas (Fallible.attempt program) :=
  Fallible.Uses.attempt within

theorem pure_within (value : A) : Within areas (pure value : Py A) := trivial

theorem throw_within (exc : Exc) : Within areas (Fallible.raise exc : Py A) := trivial

theorem ofExcept_within (outcome : Except Exc A) : Within areas (Fallible.ofExcept outcome : Py A) :=
  Fallible.uses_ofExcept outcome

theorem Within.mono {wider : List Area} {program : Py A} (within : Within areas program)
    (wide : areas ⊆ wider) : Within wider program :=
  Fallible.Uses.mono within fun _ inside => wide inside

theorem raise_within (kind : ExcKind) (message : String) : Within areas (raise kind message : Py A) := trivial

theorem readFile_inside (store : Store) : Inside (.store store) (readFile store) := ⟨List.mem_singleton_self _, fun _ => trivial⟩

theorem load_inside (store : Store) : Inside (.store store) (load store) :=
  Within.bind (readFile_inside store) fun _ => ofExcept_within _

theorem writeAtomic_inside (store : Store) (data : store.Data) : Inside (.store store) (writeAtomic store data) :=
  ⟨List.mem_singleton_self _, fun _ => trivial⟩

theorem note_inside (point : Note) : Inside point.area (note point) := ⟨List.mem_singleton_self _, fun _ => trivial⟩

theorem call_inside (target : Call) : Inside target.area (call target) := ⟨List.mem_singleton_self _, fun _ => trivial⟩

theorem whenever_within {condition : Bool} {body : Py Unit} (within : Within areas body) :
    Within areas (whenever condition body) := by
  unfold whenever
  split
  · exact within
  · trivial

theorem requireTexts_within (kind : ExcKind) (fields : List (String × String)) :
    Within areas (requireTexts kind fields) := by
  induction fields with
  | nil => trivial
  | cons field rest ih =>
      unfold requireTexts
      split
      · trivial
      · exact ih

theorem locked_within {file : LockFile} (owns : (Effect.lock file).area ∈ areas)
    (frees : (Effect.unlock file).area ∈ areas) {body : Py A} (within : Within areas body) :
    Within areas (locked file body) :=
  Within.bind ⟨owns, fun _ => trivial⟩ fun _ =>
    Within.bind within.attempt fun _ =>
      Within.bind ⟨frees, fun _ => trivial⟩ fun _ => ofExcept_within _

theorem locked_inside {file : LockFile} {area : Area} (owns : (Effect.lock file).area = area)
    (frees : (Effect.unlock file).area = area) {body : Py A} (inside : Inside area body) :
    Inside area (locked file body) :=
  locked_within (List.mem_singleton.mpr owns) (List.mem_singleton.mpr frees) inside

end

/-- A property of programs is composed when it follows their sequence. -/
structure Composed (P : (A : Type) → Py A → Prop) : Prop where
  returns {A : Type} (value : A) : P A (pure value)
  raises {A : Type} (exc : Exc) : P A (Fallible.raise exc)
  bind {A B : Type} {program : Py A} {rest : A → Py B} :
    P A program → (∀ value, P B (rest value)) → P B (program >>= rest)

/-- A sequential property also follows a program whose exceptions are caught. -/
structure Sequential (P : (A : Type) → Py A → Prop) : Prop extends Composed P where
  attempt {A : Type} {program : Py A} : P A program → P (Except Exc A) program.attempt

theorem Composed.ofExcept {P : (A : Type) → Py A → Prop} (composed : Composed P) {A : Type}
    (outcome : Except Exc A) : P A (Fallible.ofExcept outcome) := by
  cases outcome with
  | ok value => exact composed.returns value
  | error exc => exact composed.raises exc

theorem Composed.whenever {P : (A : Type) → Py A → Prop} (composed : Composed P) (condition : Bool) {body : Py Unit}
    (each : P Unit body) : P Unit (Cordboard.whenever condition body) := by
  unfold Cordboard.whenever
  split
  · exact each
  · exact composed.returns _

theorem within_sequential (areas : List Area) : Sequential fun _ program => Within areas program where
  returns := pure_within
  raises := throw_within
  bind := Within.bind
  attempt := Within.attempt

theorem keeps_sequential {S : Type} (machine : Machine signature S) (holds : S → Prop) :
    Sequential fun _ program => Fallible.Keeps machine holds program where
  returns := Fallible.keeps_pure
  raises := Fallible.keeps_raise
  bind := Fallible.Keeps.bind
  attempt := Fallible.Keeps.attempt

namespace Concurrency

theorem key_within {areas : List Area} (assistant subject : String) : Within areas (key assistant subject) :=
  Within.bind (requireTexts_within _ _) fun _ => trivial

theorem tryClaim_inside (assistant subject : String) (now staleAfter : Time) (holder : Holder) :
    Inside (.store .concurrency) (tryClaim assistant subject now staleAfter holder) := by
  refine Within.bind (key_within _ _) fun key => locked_inside rfl rfl (Within.bind (load_inside _) fun data => ?_)
  split
  · trivial
  · exact Within.bind (note_inside (.concurrencyTaken ..)) fun _ =>
      Within.bind (writeAtomic_inside _ _) fun _ => trivial

/-- A release uses its own store and notes that it has released. -/
theorem release_uses {allowed : Effect → Prop} {assistant subject : String} {holder : Holder}
    (stored : ∀ op : Effect, op.area = .store .concurrency → allowed op)
    (noted : ∀ effective, allowed (.note (.concurrencyReleased assistant subject holder effective))) :
    @Fallible.Uses signature _ _ allowed (release assistant subject holder) := by
  have inside {A : Type} {program : Py A} (within : Inside (.store .concurrency) program) :
      @Fallible.Uses signature _ _ allowed program :=
    Fallible.Uses.mono within fun op member => stored op (List.mem_singleton.mp member)
  have announced (effective : Bool) : @Fallible.Uses signature _ _ allowed
      (note (.concurrencyReleased assistant subject holder effective)) := ⟨noted effective, fun _ => trivial⟩
  have owns : Inside (.store .concurrency) (lock .concurrency) := ⟨List.mem_singleton_self _, fun _ => trivial⟩
  have frees : Inside (.store .concurrency) (unlock .concurrency) := ⟨List.mem_singleton_self _, fun _ => trivial⟩
  apply Fallible.Uses.bind (inside (key_within _ _))
  intro key
  apply Fallible.Uses.bind (inside owns)
  intro _
  apply Fallible.Uses.bind
  · apply Fallible.Uses.attempt
    apply Fallible.Uses.bind (inside (load_inside .concurrency))
    intro data
    split
    · exact Fallible.Uses.bind (announced true) fun _ => inside (writeAtomic_inside .concurrency _)
    · exact announced false
  · intro outcome
    exact Fallible.Uses.bind (inside frees) fun _ => Fallible.uses_ofExcept _

theorem release_within (assistant subject : String) (holder : Holder) :
    Within [.store .concurrency, holder.area .concurrency] (release assistant subject holder) := by
  apply release_uses
  · intro op inside
    rw [inside]
    exact List.mem_cons_self
  · intro effective
    simp [Effect.area, Note.area]

/-- A release of the caller's own claim stays inside its store. -/
theorem release_inside (assistant subject : String) {holder : Holder} (own : holder.area .concurrency = .store .concurrency) :
    Inside (.store .concurrency) (release assistant subject holder) :=
  (release_within assistant subject holder).mono (by simp [own])

theorem renew_inside (assistant subject : String) (now : Time) (holder : Holder) :
    Inside (.store .concurrency) (renew assistant subject now holder) := by
  refine Within.bind (key_within _ _) fun key => locked_inside rfl rfl (Within.bind (load_inside _) fun data => ?_)
  split
  · exact Within.bind (note_inside (.concurrencyRenewed ..)) fun _ => writeAtomic_inside _ _
  · trivial

end Concurrency

namespace SignalDedupe

theorem claim_inside (signalId : String) (now retention : Time) :
    Inside (.store .signalDedupe) (claim signalId now retention) := by
  refine Within.bind (requireTexts_within _ _) fun _ => Within.bind (load_inside _) fun stored => ?_
  dsimp only
  split
  all_goals
    exact Within.bind (writeAtomic_inside _ _) fun _ => Within.bind (note_inside _) fun _ => trivial

end SignalDedupe

namespace ResponseDedupe

theorem key_within {areas : List Area} (deployment threadId interruptId : String) :
    Within areas (key deployment threadId interruptId) :=
  Within.bind (requireTexts_within _ _) fun _ => trivial

theorem claim_inside (deployment threadId interruptId : String) (now : Time) :
    Inside (.store .responseDedupe) (claim deployment threadId interruptId now) := by
  refine Within.bind (key_within _ _ _) fun key =>
    Within.bind (locked_inside rfl rfl (Within.bind (load_inside _) fun data => ?_)) fun granted =>
      Within.bind (note_inside _) fun _ => pure_within _
  split
  · exact pure_within _
  · exact Within.bind (writeAtomic_inside _ _) fun _ => pure_within _

theorem recordOutcome_inside (deployment threadId interruptId : String) (outcome : ResponseOutcome) (now : Time) :
    Inside (.store .responseDedupe) (recordOutcome deployment threadId interruptId outcome now) := by
  refine Within.bind (key_within _ _ _) fun key =>
    locked_inside rfl rfl (Within.bind (load_inside _) fun data => ?_)
  split
  · exact raise_within _ _
  · split
    · exact Within.bind (writeAtomic_inside _ _) fun _ => pure_within _
    · exact pure_within _

end ResponseDedupe

namespace PendingCompletions

theorem key_within {areas : List Area} (deployment threadId : String) : Within areas (key deployment threadId) :=
  Within.bind (requireTexts_within _ _) fun _ => trivial

theorem recordPending_inside (deployment threadId invocationId assistant subject : String) (cascadeDepth : Nat)
    (concurrencyHeld deploymentHeld : Bool) (now : Time) :
    Inside (.store .pending) (recordPending deployment threadId invocationId assistant subject cascadeDepth
      concurrencyHeld deploymentHeld now) :=
  Within.bind (requireTexts_within _ _) fun _ => Within.bind (load_inside _) fun _ =>
    Within.bind (key_within _ _) fun _ => Within.bind (note_inside _) fun _ =>
      Within.bind (writeAtomic_inside _ _) fun _ => note_inside _

theorem updatePending_inside (deployment threadId : String) (invocationId : Option String)
    (concurrencyHeld deploymentHeld : Option Bool) (now : Time) :
    Inside (.store .pending)
      (updatePending deployment threadId invocationId concurrencyHeld deploymentHeld now) := by
  refine Within.bind (load_inside _) fun data => Within.bind (key_within _ _) fun key => ?_
  split
  · trivial
  · exact Within.bind (note_inside _) fun _ =>
      Within.bind (writeAtomic_inside _ _) fun _ => trivial

theorem getPending_inside (deployment threadId : String) :
    Inside (.store .pending) (getPending deployment threadId) :=
  Within.bind (load_inside _) fun _ => Within.bind (key_within _ _) fun _ => trivial

theorem resolvePending_inside (deployment threadId : String) :
    Inside (.store .pending) (resolvePending deployment threadId) := by
  refine Within.bind (load_inside _) fun data => Within.bind (key_within _ _) fun key => ?_
  split
  · trivial
  · exact Within.bind (note_inside _) fun _ =>
      Within.bind (writeAtomic_inside _ _) fun _ => trivial

end PendingCompletions

namespace RunContinuity

theorem recordSubmission_inside (deployment threadId apiRunId : String) :
    Inside (.store .continuity) (recordSubmission deployment threadId apiRunId) := by
  refine Within.bind (requireTexts_within _ _) fun _ => Within.bind (load_inside _) fun data => ?_
  dsimp only
  split
  · exact Within.bind (writeAtomic_inside _ _) fun _ => trivial
  · split
    · trivial
    · exact Within.bind (writeAtomic_inside _ _) fun _ => trivial

theorem logicalRun_inside (deployment threadId : String) :
    Inside (.store .continuity) (logicalRun deployment threadId) := by
  refine Within.bind (load_inside _) fun data => ?_
  split <;> trivial

end RunContinuity

namespace ApprovalExpiry

theorem resolveApproved_inside (deployment threadId : String) (now : Time) :
    Inside (.store .expiry) (resolveApproved deployment threadId now) := by
  refine Within.bind (load_inside _) fun data => ?_
  dsimp only
  split
  · trivial
  · split
    · exact Within.bind (writeAtomic_inside _ _) fun _ => trivial
    · trivial

end ApprovalExpiry

namespace DeploymentLifecycle

theorem recordStartFailed_inside (deployment : String) (data : Dict String LifecycleRecord) (pid : Option Nat)
    (now : Time) (error : String) :
    Inside (.store .lifecycle) (recordStartFailed deployment data pid now error) :=
  Within.bind (writeAtomic_inside _ _) fun _ => trivial

theorem launchDeployment_inside (deployment : String) (connection : Connection)
    (data : Dict String LifecycleRecord) (now healthTimeout : Time) (holder : Holder) :
    Inside (.store .lifecycle) (launchDeployment deployment connection data now healthTimeout holder) := by
  refine Within.bind (call_inside (.launch ..)) fun launched => ?_
  split
  · split
    · exact recordStartFailed_inside _ _ _ _ _
    · trivial
  · refine Within.bind (call_inside (.healthCheck ..)) fun healthy => ?_
    split
    · exact Within.bind (writeAtomic_inside _ _) fun _ =>
        Within.bind (note_inside (.activityTaken ..)) fun _ => trivial
    · exact recordStartFailed_inside _ _ _ _ _

theorem verifiedRecord_inside (endpoint : String) (record : Option LifecycleRecord) :
    Inside (.store .lifecycle) (verifiedRecord endpoint record) := by
  unfold verifiedRecord
  split
  · trivial
  · split
    · exact Within.bind (call_inside (.isAlive ..)) fun _ => trivial
    · trivial

theorem ensureStarted_inside (deployment : String) (connection : Connection) (now healthTimeout : Time)
    (holder : Holder) :
    Inside (.store .lifecycle) (ensureStarted deployment connection now healthTimeout holder) := by
  unfold ensureStarted
  split
  · trivial
  · refine Within.bind (load_inside _) fun data =>
      Within.bind (verifiedRecord_inside _ _) fun verified => ?_
    split
    · exact Within.bind (writeAtomic_inside _ _) fun _ =>
        Within.bind (note_inside (.activityTaken ..)) fun _ => trivial
    · exact launchDeployment_inside _ _ _ _ _ _

theorem releaseActive_within (deployment : String) (connection : Connection) (now : Time) (holder : Holder) :
    Within [.store .lifecycle, holder.area .lifecycle] (releaseActive deployment connection now holder) := by
  have noted (effective : Bool) : Within [.store .lifecycle, holder.area .lifecycle]
      (note (.activityReleased deployment holder effective)) :=
    (note_inside _).mono (by simp [Note.area])
  have loaded : [Area.store .lifecycle] ⊆ [.store .lifecycle, holder.area .lifecycle] := by simp
  unfold releaseActive
  split
  · exact noted false
  apply Within.bind ((load_inside _).mono loaded)
  intro data
  split
  · exact noted false
  · split
    · exact Within.bind (noted _) fun _ => (writeAtomic_inside _ _).mono loaded
    · exact noted false

/-- A release of the caller's own claim stays inside its store. -/
theorem releaseActive_inside (deployment : String) (connection : Connection) (now : Time) {holder : Holder}
    (own : holder.area .lifecycle = .store .lifecycle) :
    Inside (.store .lifecycle) (releaseActive deployment connection now holder) :=
  (releaseActive_within deployment connection now holder).mono (by simp [own])

end DeploymentLifecycle

namespace Router
open DeploymentLifecycle

theorem recordUnmatched_inside (signal : Signal) (reason : String) :
    Inside (.store .unmatched) (recordUnmatched signal reason) := by
  refine Within.bind (readFile_inside _) fun file => ?_
  dsimp only
  split
  · exact writeAtomic_inside _ _
  · exact writeAtomic_inside _ _
  · exact raise_within _ _
  · exact writeAtomic_inside _ _

/-- An accepted Run is anchored outside the pending completions. -/
def anchorAreas : List Area := [.knowledge, .store .continuity]

/-- A submission starts the Deployment, claims the Signal, and executes. -/
def startAreas : List Area := .store .lifecycle :: .store .signalDedupe :: .execution :: anchorAreas

section
variable {P : (A : Type) → Py A → Prop} {timeout now : Time}

/-- A sequential property of the anchor and of the record is a property of an accepted Run. -/
theorem recordAccepted_sequential (sequential : Sequential P)
    (quiet : ∀ {A : Type} {program : Py A}, Within anchorAreas program → P A program)
    (recorded : ∀ deployment threadId invocationId assistant subject depth concurrencyHeld deploymentHeld,
      P Unit (PendingCompletions.recordPending deployment threadId invocationId assistant subject depth
        concurrencyHeld deploymentHeld now)) (signal : Signal) (rule : Rule) (subject : String) (result : ExecuteResult) :
    P Submitted (recordAccepted signal rule subject result now) := by
  unfold recordAccepted
  dsimp only
  split
  · exact sequential.returns _
  · apply sequential.bind (quiet ((note_inside _).mono (by simp [Note.area, anchorAreas])))
    intro _
    apply sequential.bind (quiet ((RunContinuity.recordSubmission_inside _ _ _).mono (by decide)))
    intro _
    split
    · exact sequential.returns _
    · exact sequential.bind (sequential.attempt (recorded _ _ _ _ _ _ _ _)) fun _ => sequential.returns _

/-- A composed property of each part of the submission is a property of the submission. -/
theorem submitRun_composed (composed : Composed P) (signal : Signal) (rule : Rule) (connection : Connection)
    (graphInput : List (String × Json)) (subject : String)
    (started : P Started
      (ensureStarted rule.connection connection now healthTimeout (.hop signal.childCascadeDepth)))
    (claimed : P Bool (SignalDedupe.claim signal.id now SignalDedupe.defaultRetentionSeconds))
    (announced : P Unit (note (.executing signal.id now)))
    (executed : P (Except Exc ExecuteResult) (call (.execute connection.endpoint rule.assistant subject graphInput timeout
      signal.causedByRunId signal.childCascadeDepth)))
    (accepted : ∀ result, P Submitted (recordAccepted signal rule subject result now)) :
    P Submitted (submitRun signal rule connection graphInput subject timeout now) := by
  have submitted : P Submitted (submitStarted signal rule connection graphInput subject timeout now) := by
    apply composed.bind claimed
    intro granted
    split
    · exact composed.returns _
    · apply composed.bind announced
      intro _
      apply composed.bind executed
      intro answer
      split
      · split
        · exact composed.returns _
        · exact composed.raises _
      · exact accepted _
  apply composed.bind started
  intro answer
  cases answer with
  | startFailed error => exact composed.returns _
  | external => exact submitted
  | running pid => exact submitted

/-- A Deployment starts and a Signal is claimed before the execution. -/
def bootAreas : List Area := [.store .lifecycle, .store .signalDedupe]

/-- A sequential property of the execution and of the accepted Run is a property of the submission. -/
theorem submitRun_executing (sequential : Sequential P)
    (quiet : ∀ {A : Type} {program : Py A}, Within bootAreas program → P A program) (signal : Signal) (rule : Rule)
    (connection : Connection) (graphInput : List (String × Json)) (subject : String)
    (announced : P Unit (note (.executing signal.id now)))
    (executed : P (Except Exc ExecuteResult) (call (.execute connection.endpoint rule.assistant subject graphInput timeout
      signal.causedByRunId signal.childCascadeDepth)))
    (accepted : ∀ result, P Submitted (recordAccepted signal rule subject result now)) :
    P Submitted (submitRun signal rule connection graphInput subject timeout now) :=
  submitRun_composed sequential.toComposed signal rule connection graphInput subject
    (quiet ((ensureStarted_inside _ _ _ _ _).mono (by decide)))
    (quiet ((SignalDedupe.claim_inside _ _ _).mono (by decide))) announced executed accepted

/-- A sequential property of the accepted Run and of the start is a property of the submission. -/
theorem submitRun_sequential (sequential : Sequential P)
    (quiet : ∀ {A : Type} {program : Py A}, Within startAreas program → P A program)
    (accepted : ∀ signal rule subject result, P Submitted (recordAccepted signal rule subject result now))
    (signal : Signal) (rule : Rule) (connection : Connection) (graphInput : List (String × Json)) (subject : String) :
    P Submitted (submitRun signal rule connection graphInput subject timeout now) := by
  have executing : Inside .execution (note (.executing signal.id now)) := note_inside _
  have execute : Inside .execution (call (.execute connection.endpoint rule.assistant subject graphInput timeout
      signal.causedByRunId signal.childCascadeDepth)) := call_inside _
  exact submitRun_executing sequential (fun within => quiet (within.mono (by decide))) signal rule connection graphInput
    subject (quiet (executing.mono (by decide))) (quiet (execute.mono (by decide))) fun _ => accepted _ _ _ _

end

/-- An accepted Run is anchored and tracked. -/
def acceptedAreas : List Area := .store .pending :: anchorAreas

theorem recordAccepted_within (signal : Signal) (rule : Rule) (subject : String) (result : ExecuteResult)
    (now : Time) : Within acceptedAreas (recordAccepted signal rule subject result now) :=
  recordAccepted_sequential (within_sequential acceptedAreas) (fun within => within.mono (by decide))
    (fun _ _ _ _ _ _ _ _ => (PendingCompletions.recordPending_inside _ _ _ _ _ _ _ _ _).mono (by decide)) _ _ _ _

/-- The `finally` block drops claims only. -/
def releaseAreas : List Area := [.store .lifecycle, .store .concurrency]

theorem releaseUnlessRetained_within (signal : Signal) (rule : Rule) (connection : Connection) (subject : String)
    (now : Time) (retainDeployment retainConcurrency : Bool) :
    Within releaseAreas
      (releaseUnlessRetained signal rule connection subject now retainDeployment retainConcurrency) :=
  Within.bind (whenever_within ((releaseActive_inside _ _ _ rfl).mono (by decide))) fun _ =>
    whenever_within ((Concurrency.release_inside _ _ rfl).mono (by decide))

/-- A handover drops the claims of one entry only. -/
def heldAreas : List Area := [.store .lifecycle, .store .concurrency, .handover]

theorem releaseHeld_within (connection : Connection) (deployment threadId : String) (entry : PendingEntry) (now : Time) :
    Within heldAreas (releaseHeld connection deployment threadId entry now) :=
  Within.bind (whenever_within ((releaseActive_within _ _ _ _).mono (by simp [heldAreas, Holder.area]))) fun _ =>
    whenever_within ((Concurrency.release_within _ _ _).mono (by simp [heldAreas, Holder.area]))

theorem mapRule_within (rule : Rule) (signal : Signal) : Inside (.store .connections) (mapRule rule signal) := by
  refine Within.bind (ofExcept_within _) fun mapped =>
    Within.bind (Within.bind (load_inside _) fun data => ?_) fun connection => pure_within _
  split
  · exact pure_within _
  · exact raise_within _ _

theorem completedRunId_inside (deployment threadId : String) (entry : PendingEntry) :
    Inside (.store .continuity) (completedRunId deployment threadId entry) := by
  apply Within.bind (RunContinuity.logicalRun_inside _ _).attempt
  intro found
  split
  · exact pure_within _
  · split
    · exact pure_within _
    · exact throw_within _

/-- A hop of `route_signal` finds its Rule in these areas. -/
def ruleAreas : List Area := [.cascade, .store .rules, .store .connections, .store .unmatched]

/-- A hop of `route_signal` finds its target in these areas. -/
def targetAreas : List Area :=
  [.cascade, .store .rules, .store .connections, .store .unmatched, .store .concurrency]

section
variable {P : (A : Type) → Py A → Prop} {timeout now : Time}

/-- A settled Run is a submission with the releases of its `finally` block. -/
theorem settleRun_sequential (sequential : Sequential P) (signal : Signal) (rule : Rule) (connection : Connection)
    (graphInput : List (String × Json)) (subject : String)
    (submitted : P Submitted (submitRun signal rule connection graphInput subject timeout now))
    (released : ∀ deployment concurrency,
      P Unit (releaseUnlessRetained signal rule connection subject now deployment concurrency)) :
    P Response (settleRun signal rule connection graphInput subject timeout now) := by
  apply sequential.bind (sequential.attempt submitted)
  intro settled
  cases settled with
  | error exc => exact sequential.bind (released _ _) fun _ => sequential.raises _
  | ok submitted => exact sequential.bind (released _ _) fun _ => sequential.ofExcept _

theorem chain_composed (composed : Composed P) {cascade : Signal → Py Response}
    (children : ∀ signal, P Response (cascade signal)) (signal : Signal) (rule : Rule) (subject : String)
    (response : Response) : P Response (chain cascade signal rule subject response) := by
  unfold chain
  split
  · split
    · exact composed.bind (composed.ofExcept _) fun _ =>
        composed.bind (children _) fun _ => composed.returns _
    · exact composed.returns _
  · exact composed.returns _

/-- A composed property of the mapped Signals and of the rule areas is a property of one hop. -/
theorem routeHop_mapped (composed : Composed P)
    (quiet : ∀ {A : Type} {program : Py A}, Within ruleAreas program → P A program)
    {cascade : Signal → Py Response} (signal : Signal)
    (mapped : ∀ rule connection graphInput subject,
      P Response (routeMapped cascade signal rule connection graphInput subject timeout now)) :
    P Response (routeHop cascade timeout now signal) := by
  have unmatched (reason : String) : P Unit (recordUnmatched signal reason) :=
    quiet ((recordUnmatched_inside _ _).mono (by decide))
  have byRule : P Response (routeByRule cascade timeout now signal) := by
    apply composed.bind (quiet ((load_inside .rules).mono (by decide)))
    intro rules
    split
    · exact composed.bind (unmatched _) fun _ => composed.returns _
    · apply composed.bind (quiet ((mapRule_within _ _).attempt.mono (by decide)))
      intro found
      split
      · split
        · exact composed.bind (unmatched _) fun _ => composed.returns _
        · exact composed.raises _
      · exact mapped _ _ _ _
  unfold routeHop
  split
  · apply composed.bind (quiet ((note_inside (.routing _)).mono (by simp [Note.area, ruleAreas])))
    intro _
    split
    · exact composed.bind (unmatched _) fun _ => composed.returns _
    · exact byRule
  · exact byRule

/-- A composed property of the mapped Signals and of the rule areas is a property of `route_signal`. -/
theorem routeSignal_mapped (composed : Composed P)
    (quiet : ∀ {A : Type} {program : Py A}, Within ruleAreas program → P A program)
    (mapped : ∀ (cascade : Signal → Py Response), (∀ signal, P Response (cascade signal)) →
      ∀ signal rule connection graphInput subject,
        P Response (routeMapped cascade signal rule connection graphInput subject timeout now)) (signal : Signal) :
    P Response (routeSignal signal timeout now) := by
  have bounded (fuel : Nat) : ∀ signal, P Response (routeWithin timeout now fuel signal) := by
    induction fuel with
    | zero => exact fun _ => composed.raises _
    | succ fuel ih => exact fun signal => routeHop_mapped composed quiet signal (mapped _ ih signal)
  exact bounded _ signal

/-- A sequential property of the settled Runs and of the target areas is a property of `route_signal`. -/
theorem routeSignal_sequential (sequential : Sequential P)
    (quiet : ∀ {A : Type} {program : Py A}, Within targetAreas program → P A program)
    (settled : ∀ signal rule connection graphInput subject,
      P Response (settleRun signal rule connection graphInput subject timeout now)) (signal : Signal) :
    P Response (routeSignal signal timeout now) := by
  apply routeSignal_mapped sequential.toComposed (fun within => quiet (within.mono (by decide)))
  intro cascade children signal rule connection graphInput subject
  apply sequential.bind (quiet ((Concurrency.tryClaim_inside _ _ _ _ _).mono (by decide)))
  intro taken
  split
  · exact sequential.returns _
  · exact sequential.bind (settled _ _ _ _ _) fun response => chain_composed sequential.toComposed children _ _ _ _

end

/-- A sweep observes its entries in these areas. -/
def sweepAreas : List Area := [.store .connections, .inspection, .knowledge, .store .continuity]

/-- A composed property of each change that a sweep makes is a property of the sweep. -/
theorem sweepPending_composed {P : (A : Type) → Py A → Prop} {timeout now : Time} (composed : Composed P)
    (quiet : ∀ {A : Type} {program : Py A}, Within sweepAreas program → P A program)
    (tracked : P (Dict (String × String) PendingEntry) PendingCompletions.loadPending)
    (renewed : ∀ assistant subject deployment threadId,
      P Unit (Concurrency.renew assistant subject now (.entry deployment threadId)))
    (dropped : ∀ connection deployment threadId,
      P Unit (releaseActive deployment connection now (.entry deployment threadId)))
    (released : ∀ assistant subject deployment threadId,
      P Unit (Concurrency.release assistant subject (.entry deployment threadId)))
    (updated : ∀ deployment threadId, P (Option PendingEntry)
      (PendingCompletions.updatePending deployment threadId none (some false) (some false) now))
    (resolved : ∀ deployment threadId, P (Option PendingEntry) (PendingCompletions.resolvePending deployment threadId))
    (routed : ∀ signal, P Response (routeSignal signal timeout now)) : P (List Observed) (sweepPending timeout now) := by
  have held (connection : Connection) (deployment threadId : String) (entry : PendingEntry) :
      P Unit (releaseHeld connection deployment threadId entry now) :=
    composed.bind (composed.whenever _ (dropped _ _ _)) fun _ => composed.whenever _ (released _ _ _ _)
  have settled (connection : Connection) (deployment threadId : String) (entry : PendingEntry) (rawStatus : String) :
      P (Option Observed) (settleEntry connection deployment threadId entry rawStatus timeout now) := by
    have cascaded : Inside .knowledge (note (.cascaded deployment threadId)) := note_inside _
    unfold settleEntry
    split
    · exact composed.bind (composed.whenever _ (renewed _ _ _ _)) fun _ => composed.returns _
    split
    · apply composed.bind (held _ _ _ _)
      exact fun _ => composed.bind (updated _ _) fun _ => composed.returns _
    · apply composed.bind (held _ _ _ _)
      intro _
      apply composed.bind (resolved _ _)
      intro _
      split
      · apply composed.bind (quiet ((completedRunId_inside _ _ _).mono (by decide)))
        intro runId
        apply composed.bind (composed.ofExcept _)
        intro finished
        apply composed.bind (routed finished)
        exact fun _ => composed.bind (quiet (cascaded.mono (by decide))) fun _ => composed.returns _
      · exact composed.returns _
  have visited (connections : Dict String Connection) (deployment threadId : String) (entry : PendingEntry) :
      P (Option Observed) (sweepEntry connections deployment threadId entry timeout now) := by
    unfold sweepEntry
    split
    · exact composed.returns _
    rename_i connection _
    have described : Inside .inspection (call (.describeRun connection.endpoint threadId entry.invocationId)) :=
      call_inside _
    have observed (state : Learned) : Inside .knowledge (note (.observed deployment threadId entry.invocationId state)) :=
      note_inside _
    apply composed.bind (quiet (described.mono (by decide)))
    intro answer
    cases answer with
    | error exc =>
        dsimp only
        split
        · exact composed.returns _
        · exact composed.raises _
    | ok info => exact composed.bind (quiet ((observed _).mono (by decide))) fun _ => settled _ _ _ _ _
  have visitedAll (connections : Dict String Connection) (items : List ((String × String) × PendingEntry)) :
      P (List Observed) (sweepEntries connections timeout now items) := by
    induction items with
    | nil => exact composed.returns _
    | cons item rest ih =>
        apply composed.bind (visited connections item.1.1 item.1.2 item.2)
        exact fun _ => composed.bind ih fun _ => composed.returns _
  apply composed.bind (quiet ((load_inside .connections).mono (by decide)))
  intro connections
  exact composed.bind tracked fun items => visitedAll connections items.items

/-- A hop of `route_signal` touches these areas outside the pending completions. -/
def quietAreas : List Area := targetAreas ++ startAreas

/-- A sequential property of the records and of every other area is a property of `route_signal`. -/
theorem routeSignal_recording {P : (A : Type) → Py A → Prop} {timeout now : Time} (sequential : Sequential P)
    (quiet : ∀ {A : Type} {program : Py A}, Within quietAreas program → P A program)
    (recorded : ∀ deployment threadId invocationId assistant subject depth concurrencyHeld deploymentHeld,
      P Unit (PendingCompletions.recordPending deployment threadId invocationId assistant subject depth
        concurrencyHeld deploymentHeld now)) (signal : Signal) : P Response (routeSignal signal timeout now) := by
  apply routeSignal_sequential sequential (fun within => quiet (within.mono (by decide)))
  intro signal rule connection graphInput subject
  apply settleRun_sequential sequential
  · apply submitRun_sequential sequential (fun within => quiet (within.mono (by decide)))
    exact recordAccepted_sequential sequential (fun within => quiet (within.mono (by decide))) recorded
  · exact fun _ _ => quiet ((releaseUnlessRetained_within _ _ _ _ _ _ _).mono (by decide))

/-- `route_signal` never touches the response slots, the approval clocks, or the Threads of a resume. -/
def routeAreas : List Area := .store .pending :: quietAreas

theorem routeSignal_within (signal : Signal) (timeout now : Time) :
    Within routeAreas (routeSignal signal timeout now) :=
  routeSignal_recording (within_sequential routeAreas) (fun within => within.mono (by decide))
    (fun _ _ _ _ _ _ _ _ => (PendingCompletions.recordPending_inside _ _ _ _ _ _ _ _ _).mono (by decide)) signal

end Router

namespace AegraBackend

theorem getState_inside (endpoint threadId : String) : Inside .observation (getState endpoint threadId) :=
  Within.bind (call_inside (.threadState ..)) fun _ => ofExcept_within _

theorem getRun_inside (endpoint threadId invocationId : String) :
    Inside .inspection (getRun endpoint threadId invocationId) :=
  Within.bind (call_inside (.describeRun ..)) fun _ => ofExcept_within _

theorem waitForRun_inside (endpoint threadId invocationId : String) (timeout : Time) :
    Inside .inspection (waitForRun endpoint threadId invocationId timeout) := by
  refine Within.bind (call_inside (.lastPoll ..)) fun answer => ?_
  split
  · split
    · exact pure_within _
    · exact throw_within _
  · split <;> exact pure_within _

/-- A resume is submitted, awaited, and anchored. -/
def resumeAreas : List Area := [.transport, .inspection, .store .continuity]

theorem resume_within (endpoint deployment threadId assistant : String) (resumeValue : Json) (timeout : Time) :
    Within resumeAreas (resume endpoint deployment threadId assistant resumeValue timeout) := by
  unfold resume
  split
  · exact raise_within _ _
  split
  · exact raise_within _ _
  have submit : Inside .transport (call (.submitResume endpoint threadId assistant resumeValue)) := call_inside _
  exact Within.bind (submit.mono (by decide)) fun _ =>
    Within.bind (ofExcept_within _) fun _ =>
      Within.bind ((waitForRun_inside _ _ _ _).mono (by decide)) fun _ =>
        Within.bind ((RunContinuity.recordSubmission_inside _ _ _).mono (by decide)) fun _ => pure_within _

end AegraBackend

theorem EntityAuthBoundary.authorize_inside (boundary : EntityAuthBoundary) (submission : AuthSubmission)
    (currentRevision : Json) (stillPending : Bool) :
    Inside .authority (boundary.authorize submission currentRevision stillPending) := by
  refine Fallible.Uses.mono (boundary.external submission currentRevision stillPending) fun op external => ?_
  cases op with
  | call target => cases target <;> first | exact external.elim | exact List.mem_singleton_self _
  | _ => exact external.elim

namespace ApprovalInbox
open Router

theorem describeLatest_within (submission : Submission) (endpoint : String) :
    Within [.store .continuity, .inspection] (describeLatest submission endpoint) := by
  refine Within.bind (Within.attempt (Within.bind
    ((RunContinuity.logicalRun_inside _ _).mono (by decide)) fun record => ?_)) fun described => ?_
  · split
    · exact raise_within _ _
    · exact (AegraBackend.getRun_inside _ _ _).mono (by decide)
  · split
    · exact pure_within _
    · split
      · exact pure_within _
      · exact throw_within _

theorem describePending_within (submission : Submission) (endpoint : String) (stillPending : Bool) :
    Within [.store .continuity, .inspection] (describePending submission endpoint stillPending) := by
  unfold describePending
  split
  · exact describeLatest_within _ _
  · exact pure_within _

theorem recordOutcome_inside (submission : Submission) (outcome : ResponseOutcome) :
    Inside (.store .responseDedupe) (recordOutcome submission outcome) :=
  Within.bind (ResponseDedupe.recordOutcome_inside _ _ _ _ _) fun _ => pure_within _

theorem closeClock_inside (submission : Submission) : Inside (.store .expiry) (closeClock submission) := by
  refine Within.bind (ApprovalExpiry.resolveApproved_inside _ _ _).attempt fun closed => ?_
  split
  · exact pure_within _
  · split
    · exact pure_within _
    · exact throw_within _

theorem afterResume_within (submission : Submission) (assistant : String) (subject : Option String)
    (cascadeDepth : Nat) (result : ExecutionResult) :
    Within routeAreas (afterResume submission assistant subject cascadeDepth result) := by
  have track (held : Bool) : Within routeAreas (PendingCompletions.recordPending submission.deployment
      submission.threadId result.invocationId assistant (subject.getD "") cascadeDepth false held submission.now) :=
    (PendingCompletions.recordPending_inside _ _ _ _ _ _ _ _ _).mono (by decide)
  unfold afterResume
  dsimp only
  split
  · refine Within.bind ((PendingCompletions.resolvePending_inside _ _).mono (by decide)) fun _ => ?_
    split
    · split
      · exact Within.bind (ofExcept_within _) fun _ =>
          Within.bind (routeSignal_within _ _ _) fun _ => pure_within _
      · exact pure_within _
    · exact pure_within _
  split
  · exact Within.bind (track false) fun _ => pure_within _
  split
  · exact Within.bind (track true).attempt fun _ => pure_within _
  split <;> exact pure_within _

/-- A submission acts in these areas before its resume has an outcome. -/
def answerAreas : List Area := .store .connections :: .store .lifecycle :: .store .responseDedupe :: .observation ::
  .authority :: .store .pending :: .resumption :: .knowledge :: .store .expiry :: AegraBackend.resumeAreas

/-- A submission acts in these areas beside its activity claim. -/
def consultAreas : List Area := answerAreas.filter fun area => area ≠ .store .lifecycle

/-- A sequential property of these areas, of the activity claim and of the resumed outcome is a property of the
submission. -/
theorem submitResponse_active {P : (A : Type) → Py A → Prop} (sequential : Sequential P)
    (quiet : ∀ {A : Type} {program : Py A}, Within consultAreas program → P A program) (submission : Submission)
    (started : ∀ connection, P DeploymentLifecycle.Started (DeploymentLifecycle.ensureStarted submission.deployment
      connection submission.now healthTimeout .submission))
    (released : ∀ connection, P Unit (DeploymentLifecycle.releaseActive submission.deployment connection submission.now
      .submission))
    (resumed : ∀ assistant subject cascadeDepth result,
      P Answered (afterResume submission assistant subject cascadeDepth result)) (boundary : EntityAuthBoundary) :
    P SubmissionResult (submitResponse submission boundary) := by
  have outcome (outcome : ResponseOutcome) : P Unit (recordOutcome submission outcome) :=
    quiet ((recordOutcome_inside _ _).mono (by decide))
  have resume (endpoint : String) (described : Described) :
      P Answered (resumeAuthorized submission endpoint described) := by
    apply sequential.bind (quiet ((PendingCompletions.getPending_inside _ _).mono (by decide)))
    intro pending
    apply sequential.bind (quiet ((note_inside _).mono (by simp [Note.area, consultAreas, answerAreas])))
    intro _
    apply sequential.bind (sequential.attempt (quiet ((AegraBackend.resume_within _ _ _ _ _ _).mono (by decide))))
    intro answer
    cases answer with
    | error exc =>
        dsimp only
        split
        · exact sequential.bind (outcome _) fun _ => sequential.returns _
        · exact sequential.raises _
    | ok result =>
        apply sequential.bind (quiet ((note_inside _).mono (by simp [Note.area, consultAreas, answerAreas])))
        intro _
        apply sequential.bind (outcome _)
        intro _
        apply sequential.bind (quiet ((closeClock_inside _).mono (by decide)))
        exact fun _ => resumed _ _ _ _
  have authorized (endpoint : String) (state : Json) : P Answered (authorizeState submission boundary endpoint state) := by
    apply sequential.bind (sequential.ofExcept _)
    intro facts
    apply sequential.bind (quiet ((describePending_within _ _ _).mono (by decide)))
    intro described
    apply sequential.bind (quiet ((boundary.authorize_inside _ _ _).mono (by decide)))
    intro decision
    split
    · exact sequential.bind (outcome _) fun _ => sequential.returns _
    · exact resume _ _
  have claimed (endpoint : String) : P Answered (submitClaimed submission boundary endpoint) := by
    apply sequential.bind (quiet ((ResponseDedupe.claim_inside _ _ _ _).mono (by decide)))
    intro granted
    split
    · exact sequential.returns _
    · apply sequential.bind (sequential.attempt (quiet ((AegraBackend.getState_inside _ _).mono (by decide))))
      intro state
      cases state with
      | error exc =>
          dsimp only
          split
          · exact sequential.bind (outcome _) fun _ => sequential.returns _
          · exact sequential.raises _
      | ok state => exact authorized _ _
  have settled (connection : Connection) : P SubmissionResult (settleSubmission submission boundary connection) := by
    apply sequential.bind (sequential.attempt (claimed connection.endpoint))
    intro answered
    cases answered with
    | error exc => exact sequential.bind (released _) fun _ => sequential.raises _
    | ok answer =>
        apply sequential.bind (sequential.toComposed.whenever _ (released _))
        exact fun _ => sequential.ofExcept _
  apply sequential.bind (quiet ((load_inside .connections).mono (by decide)))
  intro connections
  split
  · exact sequential.raises _
  · apply sequential.bind (started _)
    intro started
    cases started with
    | startFailed error => exact sequential.returns _
    | external => exact settled _
    | running pid => exact settled _

/-- A sequential property of these areas and of the resumed outcome is a property of the submission. -/
theorem submitResponse_sequential {P : (A : Type) → Py A → Prop} (sequential : Sequential P)
    (quiet : ∀ {A : Type} {program : Py A}, Within answerAreas program → P A program) (submission : Submission)
    (resumed : ∀ assistant subject cascadeDepth result,
      P Answered (afterResume submission assistant subject cascadeDepth result)) (boundary : EntityAuthBoundary) :
    P SubmissionResult (submitResponse submission boundary) := by
  apply submitResponse_active sequential (fun within => quiet (within.mono (by decide))) submission
  · exact fun _ => quiet ((DeploymentLifecycle.ensureStarted_inside _ _ _ _ _).mono (by decide))
  · exact fun _ => quiet ((DeploymentLifecycle.releaseActive_inside _ _ _ rfl).mono (by decide))
  · exact resumed

/-- A sequential property of each change after a resume is a property of what follows the resume. -/
theorem afterResume_sequential {P : (A : Type) → Py A → Prop} (sequential : Sequential P) (submission : Submission)
    (recorded : ∀ invocationId assistant subject cascadeDepth held, P Unit (PendingCompletions.recordPending
      submission.deployment submission.threadId invocationId assistant subject cascadeDepth false held submission.now))
    (resolved : P (Option PendingEntry)
      (PendingCompletions.resolvePending submission.deployment submission.threadId))
    (routed : ∀ signal, P Response (routeSignal signal submission.timeout submission.now)) (assistant : String)
    (subject : Option String) (cascadeDepth : Nat) (result : ExecutionResult) :
    P Answered (afterResume submission assistant subject cascadeDepth result) := by
  unfold afterResume
  dsimp only
  split
  · apply sequential.bind resolved
    intro _
    split
    · split
      · apply sequential.bind (sequential.ofExcept _)
        exact fun _ => sequential.bind (routed _) fun _ => sequential.returns _
      · exact sequential.returns _
    · exact sequential.returns _
  split
  · exact sequential.bind (recorded _ _ _ _ _) fun _ => sequential.returns _
  split
  · exact sequential.bind (sequential.attempt (recorded _ _ _ _ _)) fun _ => sequential.returns _
  split <;> exact sequential.returns _

end ApprovalInbox

end Cordboard
