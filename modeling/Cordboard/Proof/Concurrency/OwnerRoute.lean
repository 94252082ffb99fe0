import Cordboard.Construction.Operations
import Cordboard.Proof.Concurrency.OwnerProtocol

namespace Cordboard.Owner
open Data Effects Router
open PendingCompletions (Pair)

/-- A program that starts without a claim and returns has none at its end. -/
def Frees {A : Type} (program : Py A) : Prop :=
  ∀ phase, Free phase → Fallible.wp owner.machine program
    (fun _ outcome after => ∀ value, outcome = .ok value → Free after) phase

/-- An exception asks nothing. -/
theorem raised {A : Type} {exc : Exc} {P : Prop} : ∀ value : A, Except.error exc = .ok value → P :=
  fun _ same => by cases same

theorem frees_composed : Composed fun _ program => Frees program where
  returns _ _ free _ _ := free
  raises _ _ _ := raised
  bind first second phase free := by
    apply Fallible.wp_seq (first phase free)
    · exact fun _ value middle released => second value middle (released value rfl)
    · exact fun _ _ _ _ => raised

theorem frees_of_keeps {A : Type} {program : Py A} (keeps : Fallible.Keeps owner.machine Free program) :
    Frees program :=
  fun phase free => Fallible.wp_mono (keeps phase free) fun _ _ _ kept _ _ => kept

theorem frees_aside {A : Type} {areas : List Area} {program : Py A} (within : Within areas program)
    (disjoint : ∀ area ∈ areas, area ∉ ownerAreas) : Frees program :=
  frees_of_keeps (keeps_aside disjoint within Free)

/-- A submission keeps its claim for the `finally` block, or an entry has taken the claim over. -/
def Settled (key : Key) (phase : Phase) : Except Exc Submitted → Prop
  | .error _ => Holding key phase
  | .ok submitted =>
      submitted.retainConcurrency = false ∧ Holding key phase ∨
        submitted.retainConcurrency = true ∧ ∀ response, submitted.response = .ok response → Free phase

section
variable {phase : Phase} {timeout now : Time}

/-- An accepted Run hands its claim over exactly when the `finally` block keeps it. -/
theorem recordAccepted_settles (signal : Signal) (rule : Rule) (subject : String) (result : ExecuteResult)
    (holding : Holding (rule.assistant, subject) phase) :
    Fallible.wp owner.machine (recordAccepted signal rule subject result now)
      (fun _ outcome after => Settled (rule.assistant, subject) after outcome) phase := by
  have noted (state : Learned) : Inside .knowledge
      (note (.learned rule.connection result.threadId result.runId state)) := note_inside _
  have learned (state : Learned) := keeps_aside (by decide) (noted state) (Holding (rule.assistant, subject))
  have anchored := keeps_aside (by decide)
    (RunContinuity.recordSubmission_inside rule.connection result.threadId result.runId)
    (Holding (rule.assistant, subject))
  unfold recordAccepted
  dsimp only
  split
  · exact .inl ⟨rfl, holding⟩
  apply Fallible.wp_seq (learned _ phase holding)
  · intro _ _ middle holding
    apply Fallible.wp_seq (anchored middle holding)
    · intro _ _ tracked holding
      split
      · exact .inl ⟨rfl, holding⟩
      rw [Fallible.wp_bind, Fallible.wp_attempt]
      apply Fallible.wp_mono (recordPending_hands _ _ _ _ _ _ _ _ _ holding)
      intro _ outcome after hands
      rcases hands with ⟨rfl, held, free⟩ | ⟨unheld, holding⟩
      · exact .inr ⟨held, fun _ _ => free⟩
      · cases outcome with
        | ok _ => exact .inl ⟨unheld rfl, holding⟩
        | error exc =>
            by_cases waiting : result.status = .interrupted
            · exact .inl ⟨by simp [waiting], holding⟩
            · exact .inr ⟨by simp [waiting], raised⟩
    · exact fun _ _ _ holding => holding
  · exact fun _ _ _ holding => holding

/-- A submission settles the claim of its hop. -/
theorem submitRun_settles (signal : Signal) (rule : Rule) (connection : Connection) (graphInput : List (String × Json))
    (subject : String) (holding : Holding (rule.assistant, subject) phase) :
    Fallible.wp owner.machine (submitRun signal rule connection graphInput subject timeout now)
      (fun _ outcome after => Settled (rule.assistant, subject) after outcome) phase := by
  have started := keeps_aside (by decide)
    (DeploymentLifecycle.ensureStarted_inside rule.connection connection now healthTimeout (.hop signal.childCascadeDepth))
    (Holding (rule.assistant, subject))
  have claimed := keeps_aside (by decide)
    (SignalDedupe.claim_inside signal.id now SignalDedupe.defaultRetentionSeconds) (Holding (rule.assistant, subject))
  have executing : Inside .execution (note (.executing signal.id now)) := note_inside _
  have execute : Inside .execution (call (.execute connection.endpoint rule.assistant subject graphInput timeout
      signal.causedByRunId signal.childCascadeDepth)) := call_inside _
  have announced := keeps_aside (by decide) executing (Holding (rule.assistant, subject))
  have executed := keeps_aside (by decide) execute (Holding (rule.assistant, subject))
  have submitted {middle : Phase} (holding : Holding (rule.assistant, subject) middle) :
      Fallible.wp owner.machine (submitStarted signal rule connection graphInput subject timeout now)
        (fun _ outcome after => Settled (rule.assistant, subject) after outcome) middle := by
    apply Fallible.wp_seq (claimed middle holding)
    · intro _ granted middle holding
      split
      · exact .inl ⟨rfl, holding⟩
      apply Fallible.wp_seq (announced middle holding)
      · intro _ _ middle holding
        apply Fallible.wp_seq (executed middle holding)
        · intro _ answer middle holding
          cases answer with
          | error exc =>
              dsimp only
              split
              · exact .inl ⟨rfl, holding⟩
              · exact holding
          | ok result => exact recordAccepted_settles signal rule subject result holding
        · exact fun _ _ _ holding => holding
      · exact fun _ _ _ holding => holding
    · exact fun _ _ _ holding => holding
  apply Fallible.wp_seq (started phase holding)
  · intro _ answer middle holding
    cases answer with
    | startFailed error => exact .inl ⟨rfl, holding⟩
    | external => exact submitted holding
    | running pid => exact submitted holding
  · exact fun _ _ _ holding => holding

/-- The `finally` block frees a hop that kept its claim. -/
theorem releaseUnlessRetained_frees (signal : Signal) (rule : Rule) (connection : Connection) (subject : String)
    (retainDeployment : Bool) (holding : Holding (rule.assistant, subject) phase) :
    Fallible.wp owner.machine
      (releaseUnlessRetained signal rule connection subject now retainDeployment false)
      (fun _ outcome after => ∀ value, outcome = .ok value → Free after) phase := by
  have dropped := keeps_aside (by decide)
    (@whenever_within _ (!retainDeployment) _ (DeploymentLifecycle.releaseActive_inside rule.connection connection now
      (show (Holder.hop signal.childCascadeDepth).area .lifecycle = .store .lifecycle from rfl)))
    (Holding (rule.assistant, subject))
  apply Fallible.wp_seq (dropped phase holding)
  · intro _ _ middle holding
    rw [wp_whenever, if_pos (by rfl)]
    apply Fallible.wp_mono (release_frees rule.assistant subject signal.childCascadeDepth holding)
    exact fun _ _ _ freed value same => freed same
  · exact fun _ _ _ _ => raised

/-- A `finally` block that keeps the claim keeps the phase. -/
theorem releaseUnlessRetained_keeps (signal : Signal) (rule : Rule) (connection : Connection) (subject : String)
    (retainDeployment : Bool) (holds : Phase → Prop) :
    Fallible.Keeps owner.machine holds
      (releaseUnlessRetained signal rule connection subject now retainDeployment true) := by
  have within : Inside (.store .lifecycle)
      (releaseUnlessRetained signal rule connection subject now retainDeployment true) :=
    Within.bind (whenever_within (DeploymentLifecycle.releaseActive_inside _ _ _ rfl)) fun _ => pure_within _
  exact keeps_aside (by decide) within holds

/-- A settled Run leaves no claim with the hop, unless it raises. -/
theorem settleRun_frees (signal : Signal) (rule : Rule) (connection : Connection) (graphInput : List (String × Json))
    (subject : String) (holding : Holding (rule.assistant, subject) phase) :
    Fallible.wp owner.machine (settleRun signal rule connection graphInput subject timeout now)
      (fun _ outcome after => ∀ value, outcome = .ok value → Free after) phase := by
  rw [settleRun, Fallible.wp_bind, Fallible.wp_attempt]
  apply Fallible.wp_mono (submitRun_settles signal rule connection graphInput subject holding)
  intro _ outcome middle settled
  cases outcome with
  | error exc =>
      apply Fallible.wp_seq (releaseUnlessRetained_frees signal rule connection subject false settled)
      · exact fun _ _ _ _ => raised
      · exact fun _ _ _ _ => raised
  | ok submitted =>
      obtain ⟨response, retainDeployment, retainConcurrency⟩ := submitted
      rcases settled with ⟨rfl, holding⟩ | ⟨rfl, free⟩
      · apply Fallible.wp_seq (releaseUnlessRetained_frees signal rule connection subject retainDeployment holding)
        · intro _ _ after freed
          rw [Fallible.wp_ofExcept]
          exact fun _ _ => freed () rfl
        · exact fun _ _ _ _ => raised
      · apply Fallible.wp_seq (releaseUnlessRetained_keeps signal rule connection subject retainDeployment
          (fun after => ∀ value, response = .ok value → Free after) middle free)
        · intro _ _ after freed
          rw [Fallible.wp_ofExcept]
          exact freed
        · exact fun _ _ _ _ => raised

/-- A mapped Signal leaves no claim with the hop. -/
theorem routeMapped_frees (cascade : Signal → Py Response) (children : ∀ signal, Frees (cascade signal)) (signal : Signal)
    (rule : Rule) (connection : Connection) (graphInput : List (String × Json)) (subject : String) :
    Frees (routeMapped cascade signal rule connection graphInput subject timeout now) := by
  intro phase free
  apply Fallible.wp_seq (tryClaim_takes rule.assistant subject now _ _ free)
  · rintro _ taken middle ⟨holding, blocked⟩
    cases taken with
    | false => exact fun _ _ => blocked rfl
    | true =>
        apply Fallible.wp_seq (settleRun_frees signal rule connection graphInput subject (holding rfl))
        · exact fun _ response after freed =>
            chain_composed frees_composed children signal rule subject response after (freed response rfl)
        · exact fun _ _ _ _ => raised
  · exact fun _ _ _ _ => raised

/-- A route leaves no claim with the process. -/
theorem routeSignal_frees (signal : Signal) : Frees (routeSignal signal timeout now) :=
  routeSignal_mapped frees_composed (fun within => frees_aside within (by decide)) routeMapped_frees signal

/-- A sweep leaves no claim with the process. -/
theorem sweepPending_frees : Frees (sweepPending timeout now) := by
  have tracked : Fallible.Keeps owner.machine Free PendingCompletions.loadPending := by
    intro phase free
    simp only [PendingCompletions.loadPending, wp_load]
    refine ⟨untouched rfl _, ?_⟩
    rintro _ _ rfl
    exact free
  apply sweepPending_composed frees_composed (fun within => frees_aside within (by decide)) (frees_of_keeps tracked)
  · exact fun _ _ _ _ => frees_of_keeps (renew_keeps _ _ _ _ _)
  · intro connection deployment threadId
    have activity := DeploymentLifecycle.releaseActive_within deployment connection now (.entry deployment threadId)
    have dropped : Within [.store .lifecycle, .handover]
        (DeploymentLifecycle.releaseActive deployment connection now (.entry deployment threadId)) :=
      activity.mono (by simp [Holder.area])
    exact frees_aside dropped (by decide)
  · exact fun _ _ _ _ => frees_of_keeps (release_keeps _ _ _ _)
  · exact fun _ _ => frees_of_keeps (updatePending_free _ _ _)
  · exact fun _ _ => frees_of_keeps (resolvePending_free _ _)
  · exact routeSignal_frees

end

/-- A route or a sweep obeys the owner protocol. -/
theorem perform_obeys (operation : Operation) (unanswered : operation.isSubmit = false) {phase : Phase}
    (free : Free phase) : owner.Obeys operation.perform phase := by
  have obeys {A : Type} {program : Py A} (frees : Frees program) : owner.Obeys (discard program) phase := by
    unfold Protocol.Obeys discard
    rw [Program.wp_bind]
    exact Program.wp_mono (frees phase free) fun _ _ _ _ => trivial
  cases operation with
  | route source id payload timeout now => exact obeys (routeSignal_frees _)
  | sweep timeout now => exact obeys sweepPending_frees
  | submit submission boundary => cases unanswered

end Cordboard.Owner
