import Cordboard.Proof.Deployment.IdleWindow

namespace Cordboard.IdleWindow
open Data Effects DeploymentLifecycle ClaimLedger

section
variable {clock : Nat → Time} {now : Time} {board : Board} {timing : Timing} {A : Type} {program : Py A} {areas : List Area}

/-- The counters cover the claims in a timed session where they do in a session without time. -/
theorem sound_timed (within : Within areas program) (aside : .store .pending ∉ areas)
    (sound : Fallible.Keeps entitledMachine Sound program) :
    Fallible.Keeps (promptMachine clock) (fun state => Sound (state.1, state.2.ledger)) program := by
  rintro ⟨board, timing⟩ held
  apply @Watch.wp_project _ _ _ _ (watch Ledger.entitled) (timedWatch (promptTime clock)) Timing.ledger
  · exact untimed _
  · exact fun _ _ _ _ meets => meets.2.2
  · apply Fallible.Uses.mono within
    intro op inside timing answer
    have outside : op.area ≠ .store .pending := fun same => aside (same ▸ inside)
    cases op with
    | note point =>
        cases point with
        | pendingChanged deployment threadId change => exact absurd rfl outside
        | _ => rfl
    | _ => rfl
  · exact sound _ held

theorem honoured_of_both {state : Board × Timing}
    (sound : Fallible.wp (promptMachine clock) program (fun _ _ after => Sound (after.1, after.2.ledger)) state)
    (stamped : Fallible.wp (promptMachine clock) program (fun _ _ after => Stamped clock now after) state) :
    Fallible.wp (promptMachine clock) program (fun _ _ after => Honoured clock now after) state :=
  Fallible.wp_mono (Program.wp_and sound stamped) fun _ _ _ both => ⟨both.1, both.2⟩

/-- An operation beside the lifecycle file keeps the stamps when it hands claims over at most. -/
theorem honoured_quiet (monotone : Monotone clock) {op : Effect} (unwritten : op.writes .lifecycle = false)
    (still : ∀ timing : Timing, timing.stopsAfter op = timing.stops)
    (booked : ∀ ledger answer, book ledger op answer = ledger ∨
      ∃ deployment threadId holder, book ledger op answer = ledger.pass deployment threadId holder)
    (state : Board × Timing) (honoured : Honoured clock now state) : (promptMachine clock).guard state op ∧
      ∀ answer final, (promptMachine clock).step state op answer final → Honoured clock now final := by
  obtain ⟨board, timing⟩ := state
  refine ⟨⟨trivial, trivial⟩, ?_⟩
  rintro answer ⟨after, moved⟩ ⟨move, follows, _⟩
  have kept : after .lifecycle = board .lifecycle := boardStep_frame move unwritten
  obtain rfl : moved = timing.tick (book timing.ledger op answer) timing.stops := by
    rw [← still timing]
    exact follows
  have sound : Sound (board, book timing.ledger op answer) := by
    rcases booked timing.ledger answer with same | ⟨deployment, threadId, holder, passed⟩
    · rw [same]
      exact honoured.sound
    · rw [passed]
      exact honoured.sound.pass _ _ _
  have more : ∀ other, timing.ledger.outstanding other ≤ (book timing.ledger op answer).outstanding other := by
    intro other
    rcases booked timing.ledger answer with same | ⟨deployment, threadId, holder, passed⟩
    · rw [same]
    · rw [passed, Ledger.outstanding_pass]
  constructor
  · exact sound.beside kept
  · exact honoured.stamped.quiet monotone kept more

theorem honoured_beside (monotone : Monotone clock) {op : Effect} (stored : op.area ≠ .store .lifecycle)
    (handed : op.area ≠ .handover) (state : Board × Timing) (honoured : Honoured clock now state) :
    (promptMachine clock).guard state op ∧
      ∀ answer final, (promptMachine clock).step state op answer final → Honoured clock now final := by
  apply honoured_quiet monotone (writes_of_area stored) ?_ ?_ state honoured
  · intro timing
    cases op with
    | call target => cases target <;> first | rfl | exact absurd rfl stored
    | _ => rfl
  · intro ledger answer
    cases op with
    | note point =>
        cases point with
        | pendingChanged deployment threadId change =>
            cases change with
            | recorded old new =>
                change (if new.deploymentHeld then inherit ledger deployment threadId new.cascadeDepth else ledger) = ledger ∨
                  ∃ other thread holder, (if new.deploymentHeld then inherit ledger deployment threadId new.cascadeDepth
                    else ledger) = ledger.pass other thread holder
                split
                · unfold inherit
                  split
                  · exact .inr ⟨_, _, _, rfl⟩
                  · exact .inr ⟨_, _, _, rfl⟩
                · exact .inl rfl
            | _ => exact .inl rfl
        | activityReleased deployment holder effective =>
            cases holder <;> first | exact absurd rfl stored | exact absurd rfl handed
        | activityTaken deployment holder => exact absurd rfl stored
        | _ => exact .inl rfl
    | read store => cases store <;> first | exact .inl rfl | exact absurd rfl stored
    | call target => cases target <;> first | exact .inl rfl | exact absurd rfl stored
    | _ => exact .inl rfl

/-- A program beside the lifecycle file and the handovers keeps the stamps. -/
theorem honoured_aside (monotone : Monotone clock) (within : Within areas program)
    (disjoint : ∀ area ∈ areas, area ≠ .store .lifecycle ∧ area ≠ .handover) :
    Fallible.Keeps (promptMachine clock) (Honoured clock now) program := by
  apply Fallible.keeps_of_uses (Fallible.Uses.mono within ?_)
  intro op inside
  obtain ⟨stored, handed⟩ := disjoint _ inside
  exact honoured_beside monotone stored handed

/-- A concurrency release on behalf of an entry keeps the stamps. -/
theorem release_honoured (monotone : Monotone clock) (assistant subject deployment threadId : String) :
    Fallible.Keeps (promptMachine clock) (Honoured clock now)
      (Concurrency.release assistant subject (.entry deployment threadId)) := by
  apply Fallible.keeps_of_uses
  apply Concurrency.release_uses
  · intro op inside
    exact honoured_beside monotone (by simp [inside]) (by simp [inside])
  · intro effective
    exact honoured_quiet monotone rfl (fun _ => rfl) fun _ _ => .inl rfl

section
variable {deployment : String} {connection : Connection} {timeout healthTimeout : Time} {holder : Holder}

/-- A start keeps the stamps. -/
theorem ensureStarted_honoured (monotone : Monotone clock) : Fallible.Keeps (promptMachine clock) (Honoured clock now)
    (ensureStarted deployment connection now healthTimeout holder) := by
  intro state honoured
  apply honoured_of_both
  · exact sound_timed (ensureStarted_inside _ _ _ _ _) (by decide) ensureStarted_sound state honoured.sound
  · exact ensureStarted_stamped monotone state honoured.stamped

/-- A release keeps the stamps. -/
theorem releaseActive_honoured (monotone : Monotone clock) : Fallible.Keeps (promptMachine clock) (Honoured clock now)
    (releaseActive deployment connection now holder) := by
  intro state honoured
  have within : Within [.store .lifecycle, .handover] (releaseActive deployment connection now holder) :=
    (releaseActive_within deployment connection now holder).mono (by cases holder <;> simp [Holder.area])
  apply honoured_of_both
  · exact sound_timed within (by decide) releaseActive_sound state honoured.sound
  · exact releaseActive_stamped monotone honoured

/-- A route keeps the stamps. -/
theorem routeSignal_honoured (monotone : Monotone clock) (signal : Signal) :
    Fallible.Keeps (promptMachine clock) (Honoured clock now) (Router.routeSignal signal timeout now) := by
  have sequential := keeps_sequential (promptMachine clock) (Honoured clock now)
  apply Router.routeSignal_sequential sequential (fun within => honoured_aside monotone within (by decide))
  intro signal rule connection graphInput subject
  apply Router.settleRun_sequential sequential
  · have executing : Inside .execution (note (.executing signal.id now)) := note_inside _
    have execute : Inside .execution (call (.execute connection.endpoint rule.assistant subject graphInput timeout
        signal.causedByRunId signal.childCascadeDepth)) := call_inside _
    apply Router.submitRun_composed sequential.toComposed
    · exact ensureStarted_honoured monotone
    · exact honoured_aside monotone (SignalDedupe.claim_inside _ _ _) (by decide)
    · exact honoured_aside monotone executing (by decide)
    · exact honoured_aside monotone execute (by decide)
    · intro result
      apply Router.recordAccepted_sequential sequential (fun within => honoured_aside monotone within (by decide))
      exact fun _ _ _ _ _ _ _ _ =>
        honoured_aside monotone (PendingCompletions.recordPending_inside _ _ _ _ _ _ _ _ _) (by decide)
  · intro retainDeployment retainConcurrency
    apply sequential.bind
    · exact sequential.toComposed.whenever _ (releaseActive_honoured monotone)
    · exact fun _ => honoured_aside monotone (whenever_within (Concurrency.release_inside _ _ rfl)) (by decide)

/-- A sweep keeps the stamps. -/
theorem sweepPending_honoured (monotone : Monotone clock) :
    Fallible.Keeps (promptMachine clock) (Honoured clock now) (Router.sweepPending timeout now) := by
  have composed := (keeps_sequential (promptMachine clock) (Honoured clock now)).toComposed
  apply Router.sweepPending_composed composed (fun within => honoured_aside monotone within (by decide))
  · exact honoured_aside monotone (load_inside .pending) (by decide)
  · exact fun _ _ _ _ => honoured_aside monotone (Concurrency.renew_inside _ _ _ _) (by decide)
  · exact fun _ _ _ => releaseActive_honoured monotone
  · exact release_honoured monotone
  · exact fun _ _ => honoured_aside monotone (PendingCompletions.updatePending_inside _ _ _ _ _ _) (by decide)
  · exact fun _ _ => honoured_aside monotone (PendingCompletions.resolvePending_inside _ _) (by decide)
  · exact routeSignal_honoured monotone

/-- A submission keeps the stamps. -/
theorem submitResponse_honoured (monotone : Monotone clock) (submission : ApprovalInbox.Submission)
    (boundary : EntityAuthBoundary) : Fallible.Keeps (promptMachine clock) (Honoured clock submission.now)
      (ApprovalInbox.submitResponse submission boundary) := by
  have sequential := keeps_sequential (promptMachine clock) (Honoured clock submission.now)
  apply ApprovalInbox.submitResponse_active sequential (fun within => honoured_aside monotone within (by decide))
  · exact fun _ => ensureStarted_honoured monotone
  · exact fun _ => releaseActive_honoured monotone
  · intro assistant subject cascadeDepth result
    apply ApprovalInbox.afterResume_sequential sequential
    · exact fun _ _ _ _ _ =>
        honoured_aside monotone (PendingCompletions.recordPending_inside _ _ _ _ _ _ _ _ _) (by decide)
    · exact honoured_aside monotone (PendingCompletions.resolvePending_inside _ _) (by decide)
    · exact fun signal => routeSignal_honoured monotone signal

theorem stopIdle_inside (connections : Dict String Connection) :
    Inside (.store .lifecycle) (stopIdle connections now) := by
  have each (items : List (String × LifecycleRecord)) (data : Dict String LifecycleRecord) :
      Inside (.store .lifecycle) (stopEach connections now items data) := by
    induction items generalizing data with
    | nil => exact pure_within _
    | cons item rest ih =>
        unfold stopEach
        split
        · apply Within.bind (call_inside _)
          intro _
          exact Within.bind (ih _) fun _ => pure_within _
        · exact ih _
  apply Within.bind (load_inside _)
  intro data
  apply Within.bind (each _ _)
  intro stopped
  exact Within.bind (whenever_within (writeAtomic_inside _ _)) fun _ => pure_within _

/-- A pass over the idle Deployments keeps the stamps. -/
theorem stopIdle_honoured (monotone : Monotone clock) (honoured : Honoured clock now (board, timing)) :
    Fallible.wp (promptMachine clock) (stopIdle timing.connections now) (fun _ _ after => Honoured clock now after)
      (board, timing) := by
  apply honoured_of_both
  · exact sound_timed (stopIdle_inside _) (by decide) (stopIdle_sound _) _ honoured.sound
  · exact stopIdle_stamped monotone honoured

/-- A claim that is left behind stays outstanding. -/
theorem outstanding_retire (ledger : Ledger) (id : Nat) (deployment : String) :
    (retire ledger id).outstanding deployment = ledger.outstanding deployment := by
  have same : ∀ claim : Claim, (leave id claim).deployment = claim.deployment := by
    intro claim
    unfold leave
    split <;> rfl
  simp only [retire, Ledger.outstanding, List.countP_map]
  congr 1
  funext claim
  simp [same]

theorem retire_sound {ledger : Ledger} (sound : Sound (board, ledger)) (id : Nat) : Sound (board, retire ledger id) := by
  refine ⟨?_, ?_, sound.idle, sound.own⟩
  · intro deployment record stored running
    rw [outstanding_retire]
    exact sound.counted deployment record stored running
  · intro claim member
    obtain ⟨old, inside, rfl⟩ := List.mem_map.mp member
    have known := sound.current old inside
    unfold leave
    split <;> exact known

/-- The next operation starts with stamped claims. -/
theorem prepare_honoured (monotone : Monotone clock) (action : Action) (honoured : Honoured clock now (board, timing)) :
    Honoured clock action.now (board, prepare action timing) := by
  obtain ⟨sound, stamped⟩ := honoured
  refine ⟨retire_sound sound _, rfl, stamped.logged, ?_, ?_, stamped.idle⟩
  · intro aligned deployment _
    rw [aligned]
    exact stamped.before monotone deployment
  · intro deployment record stored running unclaimed free
    dsimp only [prepare] at unclaimed
    rw [outstanding_retire] at unclaimed
    exact stamped.stamped deployment record stored running unclaimed free

/-- Each operation of a session keeps the stamps. -/
theorem perform_honoured (monotone : Monotone clock) (action : Action) (state : Board × Timing)
    (honoured : ∃ now, Honoured clock now state) : action.perform.wp (promptMachine clock)
      (fun _ _ after => ∃ now, Honoured clock now after) (state.1, prepare action state.2) := by
  obtain ⟨board, timing⟩ := state
  obtain ⟨now, honoured⟩ := honoured
  have prepared := prepare_honoured monotone action honoured
  have performed {A : Type} {program : Py A} (keeps : Fallible.wp (promptMachine clock) program
      (fun _ _ after => Honoured clock action.now after) (board, prepare action timing)) :
      (discard program).wp (promptMachine clock) (fun _ _ after => ∃ now, Honoured clock now after)
        (board, prepare action timing) := by
    unfold discard
    rw [Program.wp_bind]
    exact Program.wp_mono keeps fun _ _ _ kept => ⟨_, kept⟩
  cases action with
  | operate operation =>
      cases operation with
      | route source id payload timeout now => exact performed (routeSignal_honoured monotone _ _ prepared)
      | sweep timeout now => exact performed (sweepPending_honoured monotone _ prepared)
      | submit submission boundary => exact performed (submitResponse_honoured monotone _ _ _ prepared)
  | stop connections now => exact performed (stopIdle_honoured monotone prepared)

end

end

/-- In a session on a real clock whose releases are prompt and entitled, each stop keeps the idle window. -/
theorem idle_window_honoured (clock : Nat → Time) (monotone : Monotone clock) (ops : List Action) (board : Board)
    (covered : Covered board) {final : Board × Timing}
    (session : (actions (promptTime clock)).Session ops (board, openedAt board) final) :
    ∀ stop ∈ final.2.stops, stop.Idle clock := by
  have start : Honoured clock 0 (board, openedAt board) := by
    refine ⟨opened_sound covered, rfl, List.forall_mem_nil _, ?_, ?_, List.forall_mem_nil _⟩
    · exact fun _ _ _ => List.forall_mem_nil _
    · exact fun _ _ _ _ _ _ => List.forall_mem_nil _
  have kept := @Service.Session.keeps _ _ _ _ _ (actions (promptTime clock)) (fun state => ∃ now, Honoured clock now state)
    ops (fun action _ state => perform_honoured monotone action state) _ _ session ⟨0, start⟩
  obtain ⟨now, honoured⟩ := kept
  exact honoured.stamped.idle

section Example

instance (timing : Timing) (clock : Nat → Time) : (op : Effect) → Decidable (timing.real clock op)
  | .call (.execute _ _ _ _ timeout _ _) => inferInstanceAs (Decidable
      (timing.now = clock timing.began ∧ clock (timing.events + 1) - clock timing.events ≤ timeout))
  | .call (.lastPoll _ _ _ timeout) => inferInstanceAs (Decidable
      (timing.now = clock timing.began ∧ clock (timing.events + 1) - clock timing.events ≤ timeout))
  | .call (.isAlive ..) | .call (.launch ..) | .call (.healthCheck ..) | .call (.stop ..) | .call (.describeRun ..)
  | .call (.threadState ..) | .call (.submitResume ..) | .call (.authorize ..) | .call (.postAuthorize ..)
  | .call (.halt ..) | .read _ | .write .. | .lock _ | .unlock _ | .note _ =>
      inferInstanceAs (Decidable (timing.now = clock timing.began))

instance (timing : Timing) (clock : Nat → Time) : (op : Effect) → Decidable (timing.prompt clock op)
  | .note (.activityReleased deployment holder effective) => inferInstanceAs (Decidable
      (timing.ledger.outstanding deployment ≠ 0 →
        (timing.ledger.giveBack deployment holder effective).outstanding deployment = 0 → clock timing.events = timing.now))
  | .note (.activityTaken ..) | .note (.concurrencyTaken ..) | .note (.concurrencyReleased ..)
  | .note (.concurrencyRenewed ..) | .note (.signalClaimed ..) | .note (.executing ..) | .note (.responseClaimed ..)
  | .note (.resuming ..) | .note (.pendingChanged ..) | .note (.pendingReturned ..) | .note (.learned ..)
  | .note (.observed ..) | .note (.cascaded ..) | .note (.routing _) | .read _ | .write .. | .lock _ | .unlock _
  | .call _ => .isTrue trivial

instance (clock : Nat → Time) (timing : Timing) (op : Effect) (answer : op.Answer) :
    Decidable (realTime clock timing op answer) := inferInstanceAs (Decidable (timing.real clock op))

instance (clock : Nat → Time) (timing : Timing) (op : Effect) (answer : op.Answer) :
    Decidable (promptTime clock timing op answer) := inferInstanceAs (Decidable
      (timing.real clock op ∧ timing.prompt clock op ∧ timing.ledger.entitled op answer))

/-- The managed Deployment stops after an idle minute. -/
def minute : Dict String Connection := Dict.empty.set "local" ⟨"http://localhost", ["serve"], some 60⟩

/-- One Rule sends each manual Signal to the managed Deployment. -/
def minuteBoard : Board
  | .connections => .content minute
  | .rules => .content [⟨"answer", .manual, [], [], "local", "graph", "subject", []⟩]
  | _ => .missing

/-- The clock jumps by 100 seconds before this event. -/
def jump (event : Nat) (index : Nat) : Time := if index < event then 0 else 100

theorem jump_monotone (event : Nat) : Monotone (jump event) := by
  intro first second le
  unfold jump
  split
  · split
    · exact le_refl _
    · decide
  · rw [if_neg (by omega)]

/-- One Signal is routed, and a pass follows. -/
def routeThenStop : List Action :=
  [.operate (.route .manual "event" [("subject", .str "42")] 120 0), .stop minute 100]

/-- A session of the Signal and the pass. -/
def playMinute (limit : TimedLimit) [∀ timing op answer, Decidable (limit timing op answer)] : Option (Board × Timing) :=
  (actions limit).exec (fun _ => calm.resolver) routeThenStop (minuteBoard, openedAt minuteBoard)

theorem minuteBoard_covered : Covered minuteBoard := fun _ _ stored => by cases stored

/-- The Signal is routed at once, and the Deployment stops after 100 idle seconds. -/
theorem idle_window_honoured_quick : ∃ final, playMinute (promptTime (jump 32)) = some final ∧
    (∃ stop ∈ final.2.stops, stop.deployment = "local" ∧ stop.now = 100 ∧ stop.window = 60) ∧
    ∀ stop ∈ final.2.stops, stop.Idle (jump 32) := by
  obtain ⟨final, ended⟩ := Option.isSome_iff_exists.mp
    (show (playMinute (promptTime (jump 32))).isSome = true by decide +kernel)
  have logged : (playMinute (promptTime (jump 32))).map (fun final => final.2.stops.map fun stop =>
      (stop.deployment, stop.now, stop.window)) = some [("local", 100, 60)] := by decide +kernel
  rw [ended] at logged
  have stopped : final.2.stops.map (fun stop => (stop.deployment, stop.now, stop.window)) = [("local", 100, 60)] :=
    Option.some.inj logged
  have inside : ("local", (100 : Time), (60 : Time)) ∈ final.2.stops.map fun stop =>
      (stop.deployment, stop.now, stop.window) := by
    rw [stopped]
    exact List.mem_singleton_self _
  obtain ⟨stop, member, facts⟩ := List.mem_map.mp inside
  obtain ⟨name, rest⟩ := Prod.mk.inj facts
  obtain ⟨time, window⟩ := Prod.mk.inj rest
  exact ⟨final, ended, ⟨stop, member, name, time, window⟩, idle_window_honoured (jump 32) (jump_monotone 32) _ _
    minuteBoard_covered ((actions (promptTime (jump 32))).exec_session ended)⟩

/-- The execution lasts 100 seconds, its release is stamped with its start, and the Deployment stops at once. -/
theorem stopped_in_window : ∃ clock ops board final, Monotone clock ∧ Covered board ∧
    (actions (realTime clock)).Session ops (board, openedAt board) final ∧ ∃ stop ∈ final.2.stops, ¬ stop.Idle clock := by
  obtain ⟨final, ended⟩ := Option.isSome_iff_exists.mp
    (show (playMinute (realTime (jump 17))).isSome = true by decide +kernel)
  have logged : (playMinute (realTime (jump 17))).map (fun final => final.2.stops.any fun stop =>
      stop.now - stop.window ≤ 50 ∧ (50 : Time) ≤ stop.now ∧ stop.history.any fun entry =>
        entry.1 = 16 ∧ entry.2.any fun claim => claim.deployment = stop.deployment) = some true := by decide +kernel
  rw [ended] at logged
  obtain ⟨stop, member, facts⟩ := List.any_eq_true.mp (Option.some.inj logged)
  obtain ⟨late, early, held⟩ := of_decide_eq_true facts
  obtain ⟨⟨event, claims⟩, logged, here⟩ := List.any_eq_true.mp held
  obtain ⟨rfl, claimed⟩ := of_decide_eq_true here
  obtain ⟨claim, inside, same⟩ := List.any_eq_true.mp claimed
  have taken : HeldAt (jump 17) stop.history stop.deployment 50 :=
    ⟨_, logged, ⟨claim, inside, of_decide_eq_true same⟩, (show jump 17 16 ≤ 50 by decide),
      show 50 < jump 17 17 by decide⟩
  refine ⟨jump 17, routeThenStop, minuteBoard, final, jump_monotone 17, minuteBoard_covered, ?_, stop, member, ?_⟩
  · exact (actions (realTime (jump 17))).exec_session ended
  · exact fun idle => idle 50 late early taken

end Example

end Cordboard.IdleWindow
