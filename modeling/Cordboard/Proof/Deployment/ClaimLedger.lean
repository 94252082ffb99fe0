import Cordboard.Construction.Operations
import Cordboard.Proof.Deployment.CounterProtocol
import Cordboard.Proof.Script
import Cordboard.Proof.Watching

namespace Cordboard.ClaimLedger
open Data Effects DeploymentLifecycle

/-- An activity claim is held by a call of the session, by a hop inside a sweep, or by an entry. -/
inductive Claimant where
  | call (id : Nat)
  | inner (holder : Holder)
deriving DecidableEq

/-- A claim belongs to the process incarnation on which it was taken. -/
structure Claim where
  deployment : String
  claimant : Claimant
  incarnation : Nat
deriving DecidableEq

def Claim.isOf (deployment : String) (claimant : Claimant) (claim : Claim) : Bool :=
  claim.deployment == deployment && claim.claimant == claimant

/-- The ledger has the outstanding claims and the number of launches of each Deployment. It records the current
claims at each stop, and for each claim that lowered a counter its own and the current incarnation. -/
structure Ledger where
  caller : Option Nat
  launching : Option String
  incarnation : String → Nat
  claims : List Claim
  stops : List (List Claim)
  returned : List (Nat × Nat)

namespace Ledger

variable (ledger : Ledger) (deployment : String)

/-- A call of the session claims under its own number. -/
def claimant (holder : Holder) : Claimant :=
  match ledger.caller with
  | some id => .call id
  | none => .inner holder

/-- The number of outstanding claims on the Deployment. -/
def outstanding : Nat := ledger.claims.countP fun claim => claim.deployment == deployment

/-- The claims on the current incarnation. -/
def current : List Claim :=
  ledger.claims.filter fun claim => claim.deployment == deployment && claim.incarnation == ledger.incarnation deployment

/-- A successful launch starts a new incarnation. -/
def take (holder : Holder) : Ledger :=
  let incarnation := if ledger.launching = some deployment then
    Function.update ledger.incarnation deployment (ledger.incarnation deployment + 1) else ledger.incarnation
  { ledger with
    launching := none
    incarnation := incarnation
    claims := ⟨deployment, ledger.claimant holder, incarnation deployment⟩ :: ledger.claims }

/-- The outstanding claim of the holder. -/
def held (holder : Holder) : Option Claim := ledger.claims.find? (Claim.isOf deployment (ledger.claimant holder))

/-- A release ends the claim of its holder. -/
def giveBack (holder : Holder) (effective : Bool) : Ledger :=
  { ledger with
    claims := ledger.claims.eraseP (Claim.isOf deployment (ledger.claimant holder))
    returned := if effective then
      ((ledger.held deployment holder).map fun claim => (claim.incarnation, ledger.incarnation deployment)).toList ++
        ledger.returned else ledger.returned }

/-- A held record takes the claim over from its hop. -/
def handOver (threadId : String) (cascadeDepth : Nat) : Ledger :=
  match ledger.held deployment (.hop cascadeDepth) with
  | some claim => { ledger with
      claims := ⟨deployment, .inner (.entry deployment threadId), claim.incarnation⟩ ::
        ledger.claims.eraseP (Claim.isOf deployment (ledger.claimant (.hop cascadeDepth))) }
  | none => ledger

/-- A held record takes the claim over from any holder. -/
def pass (threadId : String) (holder : Holder) : Ledger :=
  match ledger.held deployment holder with
  | some claim => { ledger with
      claims := ⟨deployment, .inner (.entry deployment threadId), claim.incarnation⟩ ::
        ledger.claims.eraseP (Claim.isOf deployment (ledger.claimant holder)) }
  | none => ledger

/-- The ledger follows the launches, the claims, and the stops. -/
def next : (op : Effect) → op.Answer → Ledger
  | .read .lifecycle, _ => { ledger with launching := none }
  | .call (.launch deployment _), .ok _ => { ledger with launching := some deployment }
  | .call (.stop deployment _), _ => { ledger with stops := ledger.current deployment :: ledger.stops }
  | .note (.activityTaken deployment holder), _ => ledger.take deployment holder
  | .note (.activityReleased deployment holder effective), _ => ledger.giveBack deployment holder effective
  | .note (.pendingChanged deployment threadId (.recorded _ new)), _ =>
      if new.deploymentHeld then ledger.handOver deployment threadId new.cascadeDepth else ledger
  | _, _ => ledger

/-- A process starts healthy only when no claim on its Deployment is outstanding. A release that lowers the counter
gives back an outstanding claim of its holder, or no claim is outstanding. -/
def entitled : (op : Effect) → op.Answer → Prop
  | .call (.healthCheck ..), healthy =>
      ∀ deployment ∈ ledger.launching, healthy = true → ledger.outstanding deployment = 0
  | .note (.activityReleased deployment holder true), _ =>
      ledger.outstanding deployment = 0 ∨ (ledger.held deployment holder).isSome
  | _, _ => True

end Ledger

/-- A condition limits the steps of a session. -/
abbrev Limit := Ledger → (op : Effect) → op.Answer → Prop

/-- Every step is permitted. -/
def unlimited : Limit := fun _ _ _ => True

abbrev watch (limit : Limit) : Watch boardMachine where
  Phase := Ledger
  next := Ledger.next
  meets _ ledger op answer := limit ledger op answer
  safe _ _ := True

/-- A call starts or releases a Deployment under its number. The other operations sweep. -/
inductive Activity where
  | ensure (id : Nat) (deployment : String) (connection : Connection) (now healthTimeout : Time)
  | release (id : Nat) (deployment : String) (connection : Connection) (now : Time)
  | sweep (timeout now : Time)
  | stop (connections : Dict String Connection) (now : Time)

def Activity.perform : Activity → Program signature Unit
  | .ensure _ deployment connection now healthTimeout =>
      discard (ensureStarted deployment connection now healthTimeout .submission)
  | .release _ deployment connection now => discard (releaseActive deployment connection now .submission)
  | .sweep timeout now => discard (Router.sweepPending timeout now)
  | .stop connections now => discard (stopIdle connections now)

/-- The call of the session that acts. -/
def Activity.caller : Activity → Option Nat
  | .ensure id .. => some id
  | .release id .. => some id
  | _ => none

abbrev activities (limit : Limit) : Service boardMachine Activity Unit where
  watch := watch limit
  task := Activity.perform
  prepare activity ledger := { ledger with caller := activity.caller }

/-- The ledger follows these areas. -/
def ledgerLens (limit : Limit) : Lens (watch limit) where
  areas := [.store .lifecycle, .handover, .store .pending]
  stores := [.lifecycle]
  covered store member := by
    obtain rfl := List.mem_singleton.mp member
    exact List.mem_cons_self
  neutral ledger op answer outside := by
    simp only [List.mem_cons, List.not_mem_nil, or_false, not_or] at outside
    cases op with
    | read store => cases store <;> first | rfl | exact absurd rfl outside.1
    | call target => cases target <;> first | rfl | exact absurd rfl outside.1
    | note point =>
        cases point with
        | activityReleased deployment holder effective =>
            cases holder <;> first | exact absurd rfl outside.1 | exact absurd rfl outside.2.1
        | _ => first | rfl | exact absurd rfl outside.1 | exact absurd rfl outside.2.2
    | _ => rfl
  free _ _ := trivial

/-- The counter of each running record is at least the number of the outstanding claims, all of which are on the
current incarnation. No stop found a claim, and no claim of an older incarnation lowered a counter. -/
structure Sound (state : Board × Ledger) : Prop where
  counted : ∀ deployment record, (state.1 .lifecycle).find? deployment = some record → record.status = .running →
    state.2.outstanding deployment ≤ record.activeRuns
  current : ∀ claim ∈ state.2.claims, claim.incarnation = state.2.incarnation claim.deployment
  idle : ∀ claims ∈ state.2.stops, claims = []
  own : ∀ returned ∈ state.2.returned, returned.1 = returned.2

namespace Ledger

variable {ledger : Ledger} {deployment : String} {holder : Holder}

theorem held_facts {claim : Claim} (held : ledger.held deployment holder = some claim) :
    claim ∈ ledger.claims ∧ claim.deployment = deployment ∧ claim.claimant = ledger.claimant holder := by
  have matched := List.find?_some held
  simp only [Claim.isOf, Bool.and_eq_true, beq_iff_eq] at matched
  exact ⟨List.mem_of_find?_eq_some held, matched⟩

/-- A claim that is given back is no longer outstanding. -/
theorem outstanding_erase {claim : Claim} (held : ledger.held deployment holder = some claim) (other : String) :
    (ledger.claims.eraseP (Claim.isOf deployment (ledger.claimant holder))).countP (fun claim => claim.deployment == other) +
      (if other = deployment then 1 else 0) = ledger.outstanding other := by
  obtain ⟨member, _, _⟩ := held_facts held
  obtain ⟨found, before, after, _, matched, whole, rest⟩ := List.exists_of_eraseP member (List.find?_some held)
  have same : found.deployment = deployment := by
    simp only [Claim.isOf, Bool.and_eq_true, beq_iff_eq] at matched
    exact matched.1
  rw [outstanding, rest, whole, List.countP_append, List.countP_append, List.countP_cons, same]
  by_cases here : other = deployment
  · simp [here]
    omega
  · simp [here, Ne.symm here]

/-- A release leaves no more claims. -/
theorem outstanding_giveBack (ledger : Ledger) (deployment : String) (holder : Holder) (effective : Bool) (other : String) :
    (ledger.giveBack deployment holder effective).outstanding other ≤ ledger.outstanding other :=
  List.Sublist.countP_le List.eraseP_sublist

/-- A handover keeps the number of the claims. -/
theorem outstanding_pass (ledger : Ledger) (deployment threadId : String) (holder : Holder) (other : String) :
    (ledger.pass deployment threadId holder).outstanding other = ledger.outstanding other := by
  unfold pass
  split
  · rename_i claim held
    have moved := outstanding_erase held other
    rw [outstanding, List.countP_cons]
    by_cases here : other = deployment
    · simp only [here, beq_self_eq_true, if_true] at moved ⊢
      exact moved
    · simp only [here, Ne.symm here, beq_iff_eq, if_false] at moved ⊢
      exact moved
  · rfl

end Ledger

section
variable {board : Board} {ledger : Ledger}

/-- A ledger with the same claims and the same logs is as sound. -/
theorem Sound.launching (sound : Sound (board, ledger)) (launching : Option String) :
    Sound (board, { ledger with launching := launching }) :=
  ⟨sound.counted, sound.current, sound.idle, sound.own⟩

/-- The order is about the lifecycle file alone. -/
theorem Sound.beside (sound : Sound (board, ledger)) {after : Board} (same : after .lifecycle = board .lifecycle) :
    Sound (after, ledger) := by
  refine ⟨?_, sound.current, sound.idle, sound.own⟩
  intro deployment record stored running
  dsimp only at stored
  rw [same] at stored
  exact sound.counted deployment record stored running

/-- A release keeps the order between the counters and the claims. -/
theorem Sound.giveBack (sound : Sound (board, ledger)) (deployment : String) (holder : Holder) (effective : Bool) :
    Sound (board, ledger.giveBack deployment holder effective) := by
  have fewer := ledger.outstanding_giveBack deployment holder effective
  refine ⟨?_, ?_, sound.idle, ?_⟩
  · intro other record stored running
    exact (fewer other).trans (sound.counted other record stored running)
  · intro claim member
    exact sound.current claim (List.mem_of_mem_eraseP member)
  · intro returned member
    cases effective with
    | false => exact sound.own returned member
    | true =>
        rcases List.mem_append.mp member with new | old
        · simp only [Option.mem_toList, Option.map_eq_some_iff] at new
          obtain ⟨claim, held, rfl⟩ := new
          obtain ⟨inside, same, _⟩ := Ledger.held_facts held
          rw [sound.current claim inside, same]
        · exact sound.own returned old

/-- A handover keeps the order between the counters and the claims. -/
theorem Sound.pass (sound : Sound (board, ledger)) (deployment threadId : String) (holder : Holder) :
    Sound (board, ledger.pass deployment threadId holder) := by
  have same : ∀ other, (ledger.pass deployment threadId holder).outstanding other = ledger.outstanding other :=
    fun other => ledger.outstanding_pass deployment threadId holder other
  have log : (ledger.pass deployment threadId holder).stops = ledger.stops ∧
      (ledger.pass deployment threadId holder).returned = ledger.returned := by
    unfold Ledger.pass
    split <;> exact ⟨rfl, rfl⟩
  refine ⟨?_, ?_, ?_, ?_⟩
  · intro other record stored running
    dsimp only
    rw [same]
    exact sound.counted other record stored running
  · intro claim member
    unfold Ledger.pass at member ⊢
    split at member
    · rename_i old held
      obtain ⟨inside, here, _⟩ := Ledger.held_facts held
      rcases List.mem_cons.mp member with rfl | older
      · rw [← here]
        exact sound.current old inside
      · exact sound.current claim (List.mem_of_mem_eraseP older)
    · exact sound.current claim member
  · dsimp only
    rw [log.1]
    exact sound.idle
  · dsimp only
    rw [log.2]
    exact sound.own

/-- A stop of a Deployment without claims finds none. -/
theorem Sound.stop (sound : Sound (board, ledger)) {deployment : String} (free : ledger.outstanding deployment = 0) :
    Sound (board, { ledger with stops := ledger.current deployment :: ledger.stops }) := by
  refine ⟨sound.counted, sound.current, ?_, sound.own⟩
  intro claims member
  rcases List.mem_cons.mp member with rfl | older
  · apply List.filter_eq_nil_iff.mpr
    intro claim inside
    have other := List.countP_eq_zero.mp free claim inside
    simp only [Bool.and_eq_true, not_and]
    exact fun same => absurd same other
  · exact sound.idle claims older

/-- A new claim needs room in the counter, and a new incarnation starts without claims. -/
theorem Sound.take (sound : Sound (board, ledger)) {deployment : String} (holder : Holder)
    (room : ∀ record, (board .lifecycle).find? deployment = some record → record.status = .running →
      ledger.outstanding deployment + 1 ≤ record.activeRuns)
    (fresh : ledger.launching = some deployment → ledger.outstanding deployment = 0) :
    Sound (board, ledger.take deployment holder) := by
  refine ⟨?_, ?_, sound.idle, sound.own⟩
  · intro other record stored running
    simp only [Ledger.take, Ledger.outstanding, List.countP_cons]
    by_cases here : other = deployment
    · subst here
      have enough := room record stored running
      rw [Ledger.outstanding] at enough
      simpa using enough
    · have enough := sound.counted other record stored running
      rw [Ledger.outstanding] at enough
      simpa [Ne.symm here] using enough
  · intro claim member
    simp only [Ledger.take] at member ⊢
    rcases List.mem_cons.mp member with rfl | older
    · rfl
    · have known := sound.current claim older
      split
      · rename_i launched
        have elsewhere : claim.deployment ≠ deployment := by
          simpa using List.countP_eq_zero.mp (fresh launched) claim older
        rw [Function.update_of_ne elsewhere]
        exact known
      · exact known

/-- A write keeps the order between the counters and the claims when each new running record does. -/
theorem Sound.put (sound : Sound (board, ledger)) {data : Dict String LifecycleRecord}
    (written : ∀ deployment record, data.get? deployment = some record → record.status = .running →
      ledger.outstanding deployment ≤ record.activeRuns) :
    Sound (board.put .lifecycle (Store.lifecycle.sorted data), ledger) := by
  refine ⟨?_, sound.current, sound.idle, sound.own⟩
  intro deployment record stored running
  dsimp only at stored
  rw [Board.put_self, File.find?_content, get?_sorted] at stored
  exact written deployment record stored running

/-- One changed record keeps the order when its counter does. -/
theorem Sound.put_set (sound : Sound (board, ledger)) {data : Dict String LifecycleRecord}
    (decoded : decode .lifecycle (board .lifecycle) = .ok data) {deployment : String} {record : LifecycleRecord}
    (counts : record.status = .running → ledger.outstanding deployment ≤ record.activeRuns) :
    Sound (board.put .lifecycle (Store.lifecycle.sorted (data.set deployment record)), ledger) := by
  apply sound.put
  intro other stored present running
  rw [Dict.get?_set] at present
  split at present
  · rename_i same
    obtain rfl := Option.some.inj present
    rw [same]
    exact counts running
  · rw [← find?_of_decode decoded] at present
    exact sound.counted other stored present running

end

/-- The machine of the sessions whose steps are entitled. -/
abbrev entitledMachine : Machine signature (Board × Ledger) := (watch Ledger.entitled).along

/-- Nothing is asked where a sound session stops. -/
theorem unguarded (limit : Limit) (board : Board) (ledger : Ledger) : (watch limit).safe board ledger := trivial

section
variable {deployment : String} {connection : Connection} {now healthTimeout : Time} {holder : Holder}
  {board : Board} {ledger : Ledger}

/-- A failed start records no claim. -/
theorem recordStartFailed_sound {data : Dict String LifecycleRecord} (sound : Sound (board, ledger))
    (decoded : decode .lifecycle (board .lifecycle) = .ok data) (pid : Option Nat) (error : String) :
    Fallible.wp entitledMachine (recordStartFailed deployment data pid now error) (fun _ _ after => Sound after)
      (board, ledger) := by
  rw [recordStartFailed, Fallible.wp_bind]
  apply watched_write (unguarded _)
  intro _
  apply sound.put_set decoded
  intro running
  cases running

/-- A launch records one claim for a Deployment that has none. -/
theorem launchDeployment_sound {data : Dict String LifecycleRecord} (sound : Sound (board, ledger))
    (decoded : decode .lifecycle (board .lifecycle) = .ok data) :
    Fallible.wp entitledMachine (launchDeployment deployment connection data now healthTimeout holder)
      (fun _ _ after => Sound after) (board, ledger) := by
  rw [launchDeployment, Fallible.wp_bind]
  apply watched_call (unguarded _)
  intro launched _
  cases launched with
  | error exc =>
      rw [Fallible.after_ok]
      dsimp only
      split
      · exact recordStartFailed_sound sound decoded _ _
      · exact sound
  | ok pid =>
      have launching := sound.launching (some deployment)
      rw [Fallible.after_ok, Fallible.wp_bind]
      apply watched_call (unguarded _)
      intro healthy meets
      rw [Fallible.after_ok, Fallible.wp_ite]
      split
      · rename_i well
        have unclaimed : ledger.outstanding deployment = 0 := meets deployment rfl well
        rw [Fallible.wp_bind]
        apply watched_write (unguarded _)
        intro _
        rw [Fallible.after_ok, Fallible.wp_bind]
        apply watched_note (unguarded _)
        intro _
        have written : Sound (board.put .lifecycle (Store.lifecycle.sorted (data.set deployment
            ⟨.running, some pid, 1, some now, now, none⟩)), { ledger with launching := some deployment }) := by
          apply launching.put_set decoded
          intro _
          change ledger.outstanding deployment ≤ 1
          omega
        apply written.take holder
        · intro record stored _
          rw [Board.put_self, File.find?_content, get?_sorted, Dict.get?_set_self] at stored
          obtain rfl := Option.some.inj stored
          change ledger.outstanding deployment + 1 ≤ 1
          omega
        · exact fun _ => unclaimed
      · exact recordStartFailed_sound launching decoded _ _

/-- A start keeps the order between the counters and the claims. -/
theorem ensureStarted_sound : Fallible.Keeps entitledMachine Sound
    (ensureStarted deployment connection now healthTimeout holder) := by
  rintro ⟨board, ledger⟩ sound
  unfold ensureStarted
  split
  · exact sound
  rw [Fallible.wp_bind]
  apply watched_load (unguarded _)
  intro _
  have read := sound.launching none
  cases decoded : decode .lifecycle (board .lifecycle) with
  | error exc => exact read
  | ok data =>
      rw [Fallible.after_ok, Fallible.wp_bind]
      have launch := @launchDeployment_sound deployment connection now healthTimeout holder board _ data read decoded
      unfold verifiedRecord
      cases present : data.get? deployment with
      | none => exact launch
      | some record =>
          dsimp only
          rw [Fallible.wp_ite]
          split
          · rename_i running
            rw [Fallible.wp_bind]
            apply watched_call (unguarded _)
            intro alive _
            cases alive with
            | false => exact launch
            | true =>
                have stored := (find?_of_decode decoded deployment).trans present
                have before := sound.counted deployment record stored running
                simp only [Fallible.after_ok, Fallible.wp_pure, if_true]
                rw [Fallible.wp_bind]
                apply watched_write (unguarded _)
                intro _
                rw [Fallible.after_ok, Fallible.wp_bind]
                apply watched_note (unguarded _)
                intro _
                have written : Sound (board.put .lifecycle (Store.lifecycle.sorted (data.set deployment
                    { record with activeRuns := record.activeRuns + 1, lastActive := now })),
                    { ledger with launching := none }) := by
                  apply read.put_set decoded
                  intro _
                  change ledger.outstanding deployment ≤ record.activeRuns + 1
                  exact before.trans (Nat.le_succ _)
                apply written.take holder
                · intro other stored _
                  rw [Board.put_self, File.find?_content, get?_sorted, Dict.get?_set_self] at stored
                  obtain rfl := Option.some.inj stored
                  exact Nat.succ_le_succ before
                · intro same
                  cases same
          · exact launch

/-- A lowered counter still covers the claims that are left. -/
theorem lowered_counts {runs : Nat} (before : ledger.outstanding deployment ≤ runs)
    (meets : ledger.entitled (.note (.activityReleased deployment holder (0 < runs))) ()) :
    (ledger.giveBack deployment holder (0 < runs)).outstanding deployment ≤ runs - 1 := by
  have fewer := ledger.outstanding_giveBack deployment holder (0 < runs) deployment
  by_cases active : 0 < runs
  · rw [decide_eq_true active] at meets
    rcases meets with unclaimed | holding
    · omega
    · obtain ⟨claim, held⟩ := Option.isSome_iff_exists.mp holding
      have erased := Ledger.outstanding_erase held deployment
      rw [if_pos rfl] at erased
      change List.countP _ (List.eraseP _ ledger.claims) ≤ _
      omega
  · omega

/-- A release keeps the order between the counters and the claims. -/
theorem releaseActive_sound : Fallible.Keeps entitledMachine Sound
    (releaseActive deployment connection now holder) := by
  rintro ⟨board, ledger⟩ sound
  have nothing {ledger : Ledger} (sound : Sound (board, ledger)) : Fallible.wp entitledMachine
      (note (.activityReleased deployment holder false)) (fun _ _ after => Sound after) (board, ledger) := by
    apply watched_note (unguarded _)
    exact fun _ => sound.giveBack deployment holder false
  unfold releaseActive
  split
  · exact nothing sound
  rw [Fallible.wp_bind]
  apply watched_load (unguarded _)
  intro _
  have read := sound.launching none
  cases decoded : decode .lifecycle (board .lifecycle) with
  | error exc => exact read
  | ok data =>
      rw [Fallible.after_ok]
      cases present : data.get? deployment with
      | none => exact nothing read
      | some record =>
          dsimp only
          rw [Fallible.wp_ite]
          split
          · rename_i running
            have stored := (find?_of_decode decoded deployment).trans present
            have before := read.counted deployment record stored running
            rw [Fallible.wp_bind]
            apply watched_note (unguarded _)
            intro meets
            rw [Fallible.after_ok]
            apply watched_write (unguarded _)
            intro _
            apply (read.giveBack deployment holder _).put_set decoded
            intro _
            exact lowered_counts before meets
          · exact nothing read

/-- A stop of an idle record finds no claim. -/
theorem stop_sound {connections : Dict String Connection} {record : LifecycleRecord}
    (here : (board .lifecycle).find? deployment = some record) (idle : isIdle connections now deployment record = true)
    (state : Board × Ledger) (held : state.1 = board ∧ Sound state) :
    entitledMachine.guard state (Effect.call (.stop deployment record.pid)) ∧
      ∀ answer after, entitledMachine.step state (Effect.call (.stop deployment record.pid)) answer after →
        after.1 = board ∧ Sound after := by
  obtain ⟨board, ledger⟩ := state
  obtain ⟨rfl, sound⟩ := held
  obtain ⟨running, free⟩ := idle_facts idle
  have unclaimed : ledger.outstanding deployment = 0 := by
    have before := sound.counted deployment record here running
    rw [free] at before
    exact Nat.le_zero.mp before
  refine ⟨⟨trivial, trivial⟩, ?_⟩
  rintro answer ⟨after, moved⟩ ⟨same, follows, _⟩
  obtain rfl : after = board := same
  obtain rfl : moved = { ledger with stops := ledger.current deployment :: ledger.stops } := follows
  exact ⟨rfl, sound.stop unclaimed⟩

/-- A pass over the idle Deployments keeps the order between the counters and the claims. -/
theorem stopIdle_sound (connections : Dict String Connection) :
    Fallible.Keeps entitledMachine Sound (stopIdle connections now) := by
  rintro ⟨board, ledger⟩ sound
  rw [stopIdle, Fallible.wp_bind]
  apply watched_load (unguarded _)
  intro _
  have read := sound.launching none
  cases decoded : decode .lifecycle (board .lifecycle) with
  | error exc => exact read
  | ok data =>
      obtain ⟨unchanged, stored⟩ := stopsOnly_decoded decoded
      rw [Fallible.after_ok, Fallible.wp_bind]
      apply Fallible.wp_mono (stopEach_keeps (fun _ _ => stop_sound) data.items stored data unchanged ⟨rfl, read⟩)
      rintro _ outcome ⟨after, kept⟩ ⟨⟨still, lawful⟩, result⟩
      obtain rfl : after = board := still
      cases outcome with
      | error exc => exact lawful
      | ok value =>
          obtain ⟨final, names⟩ := value
          have written : Sound (after.put .lifecycle (Store.lifecycle.sorted final), kept) := by
            apply lawful.put
            intro deployment record present running
            exact lawful.counted deployment record (result _ rfl deployment record present running) running
          rw [Fallible.after_ok]
          dsimp only
          rw [Fallible.wp_bind, wp_whenever]
          split
          · apply watched_write (unguarded _)
            exact fun _ => written
          · exact lawful

end

/-- A program outside the areas of the ledger keeps the order. -/
theorem sound_aside {A : Type} {areas : List Area} {program : Py A} (within : Within areas program)
    (disjoint : ∀ area ∈ areas, area ∉ (ledgerLens Ledger.entitled).areas) :
    Fallible.Keeps entitledMachine Sound program := by
  apply (ledgerLens Ledger.entitled).keeps_within ?_ within disjoint
  rintro ⟨before, ledger⟩ ⟨after, same⟩ ⟨kept, moved⟩ sound
  obtain rfl : same = ledger := moved
  exact sound.beside (kept .lifecycle List.mem_cons_self)

/-- A change of the entries hands claims over at most. -/
theorem sound_entries {A : Type} {program : Py A} (inside : Inside (.store .pending) program) :
    Fallible.Keeps entitledMachine Sound program := by
  apply Fallible.keeps_of_uses (Fallible.Uses.mono inside ?_)
  rintro op member ⟨board, ledger⟩ sound
  have pending : Effect.area op = .store .pending := List.mem_singleton.mp member
  refine ⟨⟨trivial, trivial⟩, ?_⟩
  rintro answer ⟨after, moved⟩ ⟨move, follows, _⟩
  have kept : after .lifecycle = board .lifecycle := boardStep_frame move (writes_of_area (by simp [pending]))
  have next : moved = ledger.next op answer := follows
  have ledgerSound : Sound (board, ledger.next op answer) := by
    cases op with
    | note point =>
        cases point with
        | pendingChanged deployment threadId change =>
            cases change with
            | recorded old new =>
                change Sound (board, if new.deploymentHeld then
                  ledger.handOver deployment threadId new.cascadeDepth else ledger)
                split
                · exact sound.pass _ _ (.hop _)
                · exact sound
            | _ => exact sound
        | activityReleased deployment holder effective => cases holder <;> cases pending
        | activityTaken deployment holder => cases pending
        | _ => exact sound
    | read store => cases store <;> first | exact sound | cases pending
    | call target => cases target <;> cases pending
    | _ => exact sound
  rw [next]
  exact ledgerSound.beside kept

/-- An operation that the ledger does not follow keeps the order. -/
theorem neutral_sound {op : Effect} (still : ∀ (ledger : Ledger) answer, ledger.next op answer = ledger)
    (unwritten : op.writes .lifecycle = false) (state : Board × Ledger) (sound : Sound state) :
    entitledMachine.guard state op ∧ ∀ answer final, entitledMachine.step state op answer final → Sound final := by
  obtain ⟨board, ledger⟩ := state
  refine ⟨⟨trivial, trivial⟩, ?_⟩
  rintro answer ⟨after, moved⟩ ⟨move, follows, _⟩
  obtain rfl : moved = ledger := follows.trans (still ledger answer)
  exact sound.beside (boardStep_frame move unwritten)

/-- A concurrency release on behalf of an entry keeps the order. -/
theorem release_sound (assistant subject deployment threadId : String) : Fallible.Keeps entitledMachine Sound
    (Concurrency.release assistant subject (.entry deployment threadId)) := by
  apply Fallible.keeps_of_uses
  apply Concurrency.release_uses
  · intro op inside
    have outside : op.area ∉ (ledgerLens Ledger.entitled).areas := by
      rw [inside]
      decide
    exact neutral_sound (fun ledger answer => (ledgerLens Ledger.entitled).neutral ledger op answer outside)
      (writes_of_area (by simp [inside]))
  · exact fun _ => neutral_sound (fun _ _ => rfl) rfl

section
variable {timeout now : Time}

/-- A route keeps the order between the counters and the claims. -/
theorem routeSignal_sound (signal : Signal) : Fallible.Keeps entitledMachine Sound
    (Router.routeSignal signal timeout now) := by
  have sequential := keeps_sequential entitledMachine Sound
  apply Router.routeSignal_sequential sequential (fun within => sound_aside within (by decide))
  intro signal rule connection graphInput subject
  apply Router.settleRun_sequential sequential
  · have executing : Inside .execution (note (.executing signal.id now)) := note_inside _
    have execute : Inside .execution (call (.execute connection.endpoint rule.assistant subject graphInput timeout
        signal.causedByRunId signal.childCascadeDepth)) := call_inside _
    apply Router.submitRun_composed sequential.toComposed
    · exact ensureStarted_sound
    · exact sound_aside (SignalDedupe.claim_inside _ _ _) (by decide)
    · exact sound_aside executing (by decide)
    · exact sound_aside execute (by decide)
    · intro result
      apply Router.recordAccepted_sequential sequential (fun within => sound_aside within (by decide))
      exact fun _ _ _ _ _ _ _ _ => sound_entries (PendingCompletions.recordPending_inside _ _ _ _ _ _ _ _ _)
  · intro retainDeployment retainConcurrency
    apply sequential.bind
    · exact sequential.toComposed.whenever _ releaseActive_sound
    · exact fun _ => sound_aside (whenever_within (Concurrency.release_inside _ _ rfl)) (by decide)

/-- A sweep keeps the order between the counters and the claims. -/
theorem sweepPending_sound : Fallible.Keeps entitledMachine Sound (Router.sweepPending timeout now) := by
  have composed := (keeps_sequential entitledMachine Sound).toComposed
  apply Router.sweepPending_composed composed (fun within => sound_aside within (by decide))
  · exact sound_entries (load_inside .pending)
  · exact fun _ _ _ _ => sound_aside (Concurrency.renew_inside _ _ _ _) (by decide)
  · exact fun _ _ _ => releaseActive_sound
  · exact release_sound
  · exact fun _ _ => sound_entries (PendingCompletions.updatePending_inside _ _ _ _ _ _)
  · exact fun _ _ => sound_entries (PendingCompletions.resolvePending_inside _ _)
  · exact routeSignal_sound

end

/-- The held entries of the start have the first claims of the ledger. -/
def opened (board : Board) : Ledger where
  caller := none
  launching := none
  incarnation _ := 0
  claims :=
    match board .pending with
    | .content data => (data.items.filter fun item => item.2.deploymentHeld).map fun item =>
        ⟨item.1.1, .inner (.entry item.1.1 item.1.2), 0⟩
    | _ => []
  stops := []
  returned := []

/-- The counter of each running record covers the held entries. -/
def Covered (board : Board) : Prop := ∀ deployment record, (board .lifecycle).find? deployment = some record →
  record.status = .running → (opened board).outstanding deployment ≤ record.activeRuns

theorem opened_sound {board : Board} (covered : Covered board) : Sound (board, opened board) := by
  refine ⟨covered, ?_, List.forall_mem_nil _, List.forall_mem_nil _⟩
  intro claim member
  simp only [opened] at member
  split at member
  · obtain ⟨item, _, rfl⟩ := List.mem_map.mp member
    rfl
  · cases member

/-- Each operation of a session keeps the order between the counters and the claims. -/
theorem perform_sound (activity : Activity) (state : Board × Ledger) (sound : Sound state) :
    activity.perform.wp entitledMachine (fun _ _ after => Sound after)
      (state.1, { state.2 with caller := activity.caller }) := by
  have prepared : Sound (state.1, { state.2 with caller := activity.caller }) :=
    ⟨sound.counted, sound.current, sound.idle, sound.own⟩
  have performed {A : Type} {program : Py A} (keeps : Fallible.Keeps entitledMachine Sound program) :
      (discard program).wp entitledMachine (fun _ _ after => Sound after)
        (state.1, { state.2 with caller := activity.caller }) := by
    unfold discard
    rw [Program.wp_bind]
    exact Program.wp_mono (keeps _ prepared) fun _ _ _ kept => kept
  cases activity with
  | ensure id deployment connection now healthTimeout => exact performed ensureStarted_sound
  | release id deployment connection now => exact performed releaseActive_sound
  | sweep timeout now => exact performed sweepPending_sound
  | stop connections now => exact performed (stopIdle_sound connections)

/-- In a session that launches a Deployment only when no claim on it is outstanding, and whose releases give back an
outstanding claim, each counter covers the claims on the current incarnation. No stop finds such a claim, and no claim
of an older incarnation lowers a counter. -/
theorem counters_cover (ops : List Activity) (board : Board) (covered : Covered board) {final : Board × Ledger}
    (session : (activities Ledger.entitled).Session ops (board, opened board) final) : Sound final :=
  session.keeps (fun activity _ state => perform_sound activity state) (opened_sound covered)

instance (ledger : Ledger) : (op : Effect) → (answer : op.Answer) → Decidable (ledger.entitled op answer)
  | .call (.healthCheck ..), healthy => inferInstanceAs (Decidable
      (∀ deployment ∈ ledger.launching, healthy = true → ledger.outstanding deployment = 0))
  | .note (.activityReleased deployment holder true), _ => inferInstanceAs (Decidable
      (ledger.outstanding deployment = 0 ∨ (ledger.held deployment holder).isSome))
  | .note (.activityReleased _ _ false), _ | .note (.activityTaken ..), _ | .note (.concurrencyTaken ..), _
  | .note (.concurrencyReleased ..), _ | .note (.concurrencyRenewed ..), _ | .note (.signalClaimed ..), _
  | .note (.executing ..), _ | .note (.responseClaimed ..), _ | .note (.resuming ..), _ | .note (.pendingChanged ..), _
  | .note (.pendingReturned ..), _ | .note (.learned ..), _ | .note (.observed ..), _ | .note (.cascaded ..), _
  | .note (.routing _), _ | .call (.isAlive ..), _ | .call (.launch ..), _ | .call (.stop ..), _ | .call (.execute ..), _
  | .call (.describeRun ..), _ | .call (.lastPoll ..), _ | .call (.threadState ..), _ | .call (.submitResume ..), _
  | .call (.authorize ..), _ | .call (.postAuthorize ..), _ | .call (.halt ..), _ | .read _, _ | .write .., _
  | .lock _, _ | .unlock _, _ => .isTrue trivial

instance (ledger : Ledger) (op : Effect) (answer : op.Answer) : Decidable (unlimited ledger op answer) := .isTrue trivial

/-- The managed Deployment of these sessions stops as soon as it is idle. -/
def managed : Connection := ⟨"http://localhost", ["serve"], some 0⟩

/-- The process of the Deployment has died whenever a call looks. -/
def dying : Script := fun past target =>
  match target with
  | .isAlive .. => false
  | other => calm past other

/-- The Deployment crashes after the first claim was released. -/
def releasedFirst : List Activity :=
  [.ensure 0 "local" managed 0 30, .release 0 "local" managed 1, .ensure 1 "local" managed 2 30,
    .stop (Dict.empty.set "local" managed) 3, .release 1 "local" managed 4, .stop (Dict.empty.set "local" managed) 5]

/-- The Deployment crashes under the first claim, which is released after the relaunch. -/
def releasedLate : List Activity :=
  [.ensure 0 "local" managed 0 30, .ensure 1 "local" managed 1 30, .release 0 "local" managed 2,
    .stop (Dict.empty.set "local" managed) 3]

/-- A session on an empty board. -/
def session (limit : Limit) [∀ ledger op answer, Decidable (limit ledger op answer)] (ops : List Activity) :
    Option (Board × Ledger) :=
  (activities limit).exec (fun _ => dying.resolver) ops (fun _ => .missing, opened fun _ => .missing)

theorem counters_cover_releasedFirst :
    ∃ final, session Ledger.entitled releasedFirst = some final ∧ final.2.stops = [[]] ∧
      final.2.returned = [(2, 2), (1, 1)] ∧ Covered (fun _ => .missing) ∧ Sound final := by
  have covered : Covered fun _ => .missing := fun _ _ _ _ => Nat.zero_le _
  obtain ⟨final, ended⟩ := Option.isSome_iff_exists.mp
    (show (session Ledger.entitled releasedFirst).isSome = true by decide +kernel)
  have logs : (session Ledger.entitled releasedFirst).map (fun final => (final.2.stops, final.2.returned)) =
      some ([[]], [(2, 2), (1, 1)]) := by decide +kernel
  rw [ended] at logs
  obtain ⟨stops, returned⟩ := Prod.mk.inj (Option.some.inj logs)
  exact ⟨final, ended, stops, returned, covered,
    counters_cover _ _ covered ((activities Ledger.entitled).exec_session ended)⟩

/-- The late release lowers the counter of the new incarnation, and the Deployment stops under the second claim. -/
theorem stopped_after_relaunch :
    ∃ ops final, (activities unlimited).Session ops (fun _ => .missing, opened fun _ => .missing) final ∧
      Covered (fun _ => .missing) ∧ (∃ claims ∈ final.2.stops, claims ≠ []) ∧
      ∃ returned ∈ final.2.returned, returned.1 ≠ returned.2 := by
  obtain ⟨final, ended⟩ := Option.isSome_iff_exists.mp
    (show (session unlimited releasedLate).isSome = true by decide +kernel)
  have logs : (session unlimited releasedLate).map (fun final => (final.2.stops, final.2.returned)) =
      some ([[⟨"local", .call 1, 2⟩]], [(1, 2)]) := by decide +kernel
  rw [ended] at logs
  obtain ⟨stops, returned⟩ := Prod.mk.inj (Option.some.inj logs)
  refine ⟨releasedLate, final, (activities unlimited).exec_session ended, fun _ _ _ _ => Nat.zero_le _, ?_, ?_⟩
  · exact ⟨[⟨"local", .call 1, 2⟩], by simp [stops], by simp⟩
  · exact ⟨(1, 2), by simp [returned], by simp⟩

end Cordboard.ClaimLedger
