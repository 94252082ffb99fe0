import Cordboard.Proof.Deployment.IdleClock

namespace Cordboard.IdleWindow
open Data Effects DeploymentLifecycle ClaimLedger

/-- The machine of the sessions with prompt releases. -/
abbrev promptMachine (clock : Nat → Time) : Machine signature (Board × Timing) := (timedWatch (promptTime clock)).along

/-- Nothing is asked where a timed session stops. -/
theorem untimed (limit : TimedLimit) (board : Board) (timing : Timing) : (timedWatch limit).safe board timing := trivial

section
variable {clock : Nat → Time} {deployment : String} {connection : Connection} {now healthTimeout : Time} {holder : Holder}
  {board : Board} {timing : Timing}

theorem aligned_of_real {op : Effect} (real : timing.real clock op) : timing.now = clock timing.began := by
  unfold Timing.real at real
  split at real
  · exact real.1
  · exact real.1
  · exact real

theorem outstanding_take (ledger : Ledger) (deployment : String) (holder : Holder) (other : String) :
    ledger.outstanding other ≤ (ledger.take deployment holder).outstanding other := by
  simp only [Ledger.take, Ledger.outstanding, List.countP_cons]
  omega

/-- A call takes and ends no claim. -/
theorem book_call (ledger : Ledger) (target : Call) (answer : target.Answer) :
    (book ledger (.call target) answer).claims = ledger.claims := by
  cases target with
  | launch deployment command => cases answer <;> rfl
  | _ => rfl

section
variable (monotone : Monotone clock) (stamped : Stamped clock now (board, timing))
include monotone stamped

/-- A call keeps the stamps unless it stops a Deployment. -/
theorem stamped_call {target : Call} {post : List signature.Event → Except Exc target.Answer → Board × Timing → Prop}
    (still : timing.stopsAfter (.call target) = timing.stops)
    (rest : ∀ answer next, Stamped clock now (board, next) → post [⟨Effect.call target, answer⟩] (.ok answer) (board, next)) :
    Fallible.wp (promptMachine clock) (call target) post (board, timing) := by
  apply watched_call (untimed _)
  intro answer _
  have same : ∀ other, timing.ledger.outstanding other ≤ (book timing.ledger (.call target) answer).outstanding other := by
    intro other
    rw [Ledger.outstanding, Ledger.outstanding, book_call]
  have kept := @Stamped.quiet clock now board board timing (book timing.ledger (.call target) answer) stamped monotone
    rfl same
  rw [← still] at kept
  exact rest answer _ kept

theorem stamped_load {post : List signature.Event → Except Exc Store.lifecycle.Data → Board × Timing → Prop}
    (rest : ∀ next, Stamped clock now (board, next) → next.ledger.claims = timing.ledger.claims →
      post [⟨Effect.read .lifecycle, board .lifecycle⟩] (decode .lifecycle (board .lifecycle)) (board, next)) :
    Fallible.wp (promptMachine clock) (load .lifecycle) post (board, timing) := by
  apply watched_load (untimed _)
  intro _
  exact rest _ (stamped.quiet monotone rfl fun _ => Nat.le_refl _) rfl

/-- A write of the operation stamps the record that it changes. -/
theorem stamped_write {data : Dict String LifecycleRecord} (decoded : decode .lifecycle (board .lifecycle) = .ok data)
    {record : LifecycleRecord} (new : record.status = .running → record.lastActive = now)
    {post : List signature.Event → Except Exc Unit → Board × Timing → Prop}
    (rest : ∀ after next, Stamped clock now (after, next) → post [⟨Effect.write .lifecycle
      (Store.lifecycle.sorted (data.set deployment record)), ()⟩] (.ok ()) (after, next)) :
    Fallible.wp (promptMachine clock) (writeAtomic .lifecycle (data.set deployment record)) post (board, timing) := by
  apply watched_write (untimed _)
  intro meets
  exact rest _ _ (stamped.write monotone decoded (aligned_of_real meets.1) new)

/-- A new claim keeps the stamps. -/
theorem stamped_take : Fallible.wp (promptMachine clock) (note (.activityTaken deployment holder))
    (fun _ _ after => Stamped clock now after) (board, timing) := by
  apply watched_note (untimed _)
  intro _
  exact stamped.quiet monotone rfl (outstanding_take _ deployment holder)

/-- A failed start leaves a record that does not run. -/
theorem recordStartFailed_stamped {data : Dict String LifecycleRecord}
    (decoded : decode .lifecycle (board .lifecycle) = .ok data) (pid : Option Nat) (error : String) :
    Fallible.wp (promptMachine clock) (recordStartFailed deployment data pid now error)
      (fun _ _ after => Stamped clock now after) (board, timing) := by
  rw [recordStartFailed, Fallible.wp_bind]
  apply stamped_write monotone stamped decoded
  · intro running
    cases running
  · exact fun _ _ written => written

/-- A launch stamps its record. -/
theorem launchDeployment_stamped {data : Dict String LifecycleRecord}
    (decoded : decode .lifecycle (board .lifecycle) = .ok data) :
    Fallible.wp (promptMachine clock) (launchDeployment deployment connection data now healthTimeout holder)
      (fun _ _ after => Stamped clock now after) (board, timing) := by
  rw [launchDeployment, Fallible.wp_bind]
  apply stamped_call monotone stamped rfl
  intro launched timing begun
  cases launched with
  | error exc =>
      rw [Fallible.after_ok]
      dsimp only
      split
      · exact recordStartFailed_stamped monotone begun decoded _ _
      · exact begun
  | ok pid =>
      rw [Fallible.after_ok, Fallible.wp_bind]
      apply stamped_call monotone begun rfl
      intro healthy timing checked
      rw [Fallible.after_ok, Fallible.wp_ite]
      split
      · rw [Fallible.wp_bind]
        apply stamped_write monotone checked decoded fun _ => rfl
        intro after timing written
        rw [Fallible.after_ok, Fallible.wp_bind]
        apply Fallible.wp_mono (stamped_take monotone written)
        intro _ outcome after kept
        cases outcome <;> exact kept
      · exact recordStartFailed_stamped monotone checked decoded _ _

end

/-- A start stamps the record that it counts on. -/
theorem ensureStarted_stamped (monotone : Monotone clock) : Fallible.Keeps (promptMachine clock) (Stamped clock now)
    (ensureStarted deployment connection now healthTimeout holder) := by
  rintro ⟨board, timing⟩ stamped
  unfold ensureStarted
  split
  · exact stamped
  rw [Fallible.wp_bind]
  apply stamped_load monotone stamped
  intro timing read _
  cases decoded : decode .lifecycle (board .lifecycle) with
  | error exc => exact read
  | ok data =>
      rw [Fallible.after_ok, Fallible.wp_bind]
      unfold verifiedRecord
      cases present : data.get? deployment with
      | none => exact launchDeployment_stamped monotone read decoded
      | some record =>
          dsimp only
          rw [Fallible.wp_ite]
          split
          · rw [Fallible.wp_bind]
            apply stamped_call monotone read rfl
            intro alive timing probed
            cases alive with
            | false => exact launchDeployment_stamped monotone probed decoded
            | true =>
                simp only [Fallible.after_ok, Fallible.wp_pure, if_true]
                rw [Fallible.wp_bind]
                apply stamped_write monotone probed decoded fun _ => rfl
                intro after timing written
                rw [Fallible.after_ok, Fallible.wp_bind]
                apply Fallible.wp_mono (stamped_take monotone written)
                intro _ outcome after kept
                cases outcome <;> exact kept
          · exact launchDeployment_stamped monotone read decoded

/-- A release leaves the claims on the other Deployments. -/
theorem outstanding_others {ledger : Ledger} {other : String} (different : other ≠ deployment) (effective : Bool) :
    (ledger.giveBack deployment holder effective).outstanding other = ledger.outstanding other := by
  change List.countP _ (List.eraseP _ ledger.claims) = _
  cases held : ledger.held deployment holder with
  | none =>
      have absent : ∀ claim ∈ ledger.claims, ¬ Claim.isOf deployment (ledger.claimant holder) claim = true := by
        simpa [Ledger.held] using held
      rw [List.eraseP_of_forall_not absent]
      rfl
  | some claim =>
      have moved := Ledger.outstanding_erase held other
      rw [if_neg different] at moved
      exact moved

/-- The counter of each running record covers the claims. -/
def Covers (board : Board) (claims : List Claim) : Prop :=
  ∀ deployment record, (board .lifecycle).find? deployment = some record → record.status = .running →
    claims.countP (fun claim => claim.deployment == deployment) ≤ record.activeRuns

/-- A prompt release keeps the stamps. -/
theorem stamped_release (monotone : Monotone clock) (stamped : Stamped clock now (board, timing))
    (covers : Covers board timing.ledger.claims) {effective : Bool}
    {post : List signature.Event → Except Exc Unit → Board × Timing → Prop}
    (rest : ∀ next, Stamped clock now (board, next) →
      post [⟨Effect.note (.activityReleased deployment holder effective), ()⟩] (.ok ()) (board, next)) :
    Fallible.wp (promptMachine clock) (note (.activityReleased deployment holder effective)) post (board, timing) := by
  apply watched_note (untimed _)
  intro meets
  apply rest
  apply stamped.advance monotone
  · intro other none before
    by_cases here : other = deployment
    · subst here
      rw [← stamped.current]
      exact meets.2.1 before none
    · exact absurd ((outstanding_others here effective).symm.trans none) before
  · exact stamped.idle
  · intro other record stored running _ free
    have counted := covers other record stored running
    rw [free] at counted
    exact .inl ⟨stored, Nat.le_zero.mp counted⟩

/-- A release stamps the record that it lowers. -/
theorem releaseActive_stamped (monotone : Monotone clock) (honoured : Honoured clock now (board, timing)) :
    Fallible.wp (promptMachine clock) (releaseActive deployment connection now holder)
      (fun _ _ after => Stamped clock now after) (board, timing) := by
  have covers : Covers board timing.ledger.claims := honoured.sound.counted
  unfold releaseActive
  split
  · exact stamped_release monotone honoured.stamped covers fun _ kept => kept
  rw [Fallible.wp_bind]
  apply stamped_load monotone honoured.stamped
  intro timing read same
  rw [← same] at covers
  cases decoded : decode .lifecycle (board .lifecycle) with
  | error exc => exact read
  | ok data =>
      rw [Fallible.after_ok]
      cases present : data.get? deployment with
      | none => exact stamped_release monotone read covers fun _ kept => kept
      | some record =>
          dsimp only
          rw [Fallible.wp_ite]
          split
          · rw [Fallible.wp_bind]
            apply stamped_release monotone read covers
            intro timing released
            rw [Fallible.after_ok]
            apply stamped_write monotone released decoded fun _ => rfl
            exact fun _ _ written => written
          · exact stamped_release monotone read covers fun _ kept => kept

/-- A record is idle when its window has passed since its last activity. -/
theorem window_passed {connections : Dict String Connection} {record : LifecycleRecord}
    (idle : isIdle connections now deployment record = true) : windowOf connections deployment ≤ now - record.lastActive := by
  unfold isIdle at idle
  split at idle
  · cases idle
  · rename_i connection found
    simp only [Bool.and_eq_true, decide_eq_true_eq] at idle
    rw [windowOf, found]
    exact idle.2

/-- A stop of an idle record keeps the idle window. -/
theorem stop_idle {connections : Dict String Connection} {record : LifecycleRecord} {history : History}
    (ended : EndedBy clock history deployment record.lastActive)
    (idle : isIdle connections now deployment record = true) :
    (Stop.mk deployment now (windowOf connections deployment) history).Idle clock := by
  intro instant late _ ⟨entry, member, held, _, early⟩
  have stamp := ended entry member held
  have passed := window_passed idle
  dsimp only at late
  have quiet : record.lastActive ≤ now - windowOf connections deployment := le_sub_comm.mp passed
  exact absurd (lt_of_lt_of_le early (stamp.trans (quiet.trans late))) (lt_irrefl _)

/-- What a pass needs: the counters cover the claims of the stamped board, and the connections are those of the pass. -/
structure Passing (clock : Nat → Time) (now : Time) (connections : Dict String Connection) (board : Board)
    (state : Board × Timing) : Prop where
  same : state.1 = board
  stamped : Stamped clock now state
  known : state.2.connections = connections
  covers : Covers board state.2.ledger.claims

/-- A stop of an idle record keeps the stamps. -/
theorem stop_stamped (monotone : Monotone clock) {connections : Dict String Connection} {record : LifecycleRecord}
    (here : (board .lifecycle).find? deployment = some record) (idle : isIdle connections now deployment record = true)
    (state : Board × Timing) (held : Passing clock now connections board state) :
    (promptMachine clock).guard state (Effect.call (.stop deployment record.pid)) ∧
      ∀ answer after, (promptMachine clock).step state (Effect.call (.stop deployment record.pid)) answer after →
        Passing clock now connections board after := by
  obtain ⟨board, timing⟩ := state
  obtain ⟨rfl, stamped, known, covers⟩ := held
  obtain ⟨running, free⟩ := idle_facts idle
  have unclaimed : timing.ledger.outstanding deployment = 0 := by
    have counted := covers deployment record here running
    rw [free] at counted
    exact Nat.le_zero.mp counted
  have ended := stamped.stamped deployment record here running unclaimed free
  refine ⟨⟨trivial, trivial⟩, ?_⟩
  rintro answer ⟨after, moved⟩ ⟨same, follows, _⟩
  obtain rfl : after = board := same
  obtain rfl : moved = timing.next (.call (.stop deployment record.pid)) answer := follows
  refine ⟨rfl, ?_, known, covers⟩
  apply stamped.advance monotone
  · exact fun deployment unclaimed before => absurd unclaimed before
  · apply List.forall_mem_cons.mpr ⟨?_, stamped.idle⟩
    rw [stamped.current, known]
    exact stop_idle ended idle
  · exact fun deployment record stored _ unclaimed _ => .inl ⟨stored, unclaimed⟩

/-- A pass over the idle Deployments keeps the stamps. -/
theorem stopIdle_stamped (monotone : Monotone clock) (honoured : Honoured clock now (board, timing)) :
    Fallible.wp (promptMachine clock) (stopIdle timing.connections now) (fun _ _ after => Stamped clock now after)
      (board, timing) := by
  have covers : Covers board timing.ledger.claims := honoured.sound.counted
  rw [stopIdle, Fallible.wp_bind]
  apply watched_load (untimed _)
  intro _
  have read : Stamped clock now (board, timing.next (.read .lifecycle) (board .lifecycle)) :=
    honoured.stamped.quiet monotone rfl fun _ => Nat.le_refl _
  cases decoded : decode .lifecycle (board .lifecycle) with
  | error exc => exact read
  | ok data =>
      obtain ⟨unchanged, stored⟩ := stopsOnly_decoded decoded
      have passing : Passing clock now timing.connections board
          (board, timing.next (.read .lifecycle) (board .lifecycle)) := ⟨rfl, read, rfl, covers⟩
      rw [Fallible.after_ok, Fallible.wp_bind]
      apply Fallible.wp_mono (stopEach_keeps (fun _ _ => stop_stamped monotone) data.items stored data unchanged passing)
      rintro _ outcome ⟨after, kept⟩ ⟨⟨still, held, _, _⟩, result⟩
      obtain rfl : after = board := still
      cases outcome with
      | error exc => exact held
      | ok value =>
          obtain ⟨final, names⟩ := value
          rw [Fallible.after_ok]
          dsimp only
          rw [Fallible.wp_bind, wp_whenever]
          split
          · apply watched_write (untimed _)
            intro _
            apply held.advance monotone
            · exact fun deployment unclaimed before => absurd unclaimed before
            · exact held.idle
            · intro deployment record present running unclaimed _
              rw [Board.put_self, File.find?_content, get?_sorted] at present
              exact .inl ⟨result _ rfl deployment record present running, unclaimed⟩
          · exact held

end

end Cordboard.IdleWindow
