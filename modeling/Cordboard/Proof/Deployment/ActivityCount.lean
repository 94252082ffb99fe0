import Cordboard.Proof.Deployment.CounterProtocol
import Cordboard.Proof.Script

namespace Cordboard.DeploymentLifecycle
open Data Effects

/-- The data holds a running record of the Deployment. -/
def runningIn (data : Dict String LifecycleRecord) (deployment : String) : Bool :=
  (data.get? deployment).any fun record => record.status == .running

/-- A start or a release concerns one Deployment. -/
def LifecycleCall.target : LifecycleCall → Option String
  | .ensure deployment .. => some deployment
  | .release _ deployment .. => some deployment
  | .sweep .. => none

/-- A start takes a claim with its write. A release gives one back with its write, or without one. -/
def LifecycleCall.claims (pid : Pid) (event : signature.Event) (outstanding : List Pid) : LifecycleCall → List Pid
  | .ensure deployment .. =>
      match event.1 with
      | .write .lifecycle data => if runningIn data deployment then pid :: outstanding else outstanding
      | _ => outstanding
  | .release (some owner) .. =>
      match event.1 with
      | .write .lifecycle _ => outstanding.erase owner
      | .note (.activityReleased _ _ false) => outstanding.erase owner
      | _ => outstanding
  | _ => outstanding

section
variable (calls : Pid → LifecycleCall)

/-- These processes hold a claim on the Deployment that is not released yet. -/
def claimants (deployment : String) : Chronicle → List Pid
  | [] => []
  | .act pid event :: history =>
      if (calls pid).target = some deployment then (calls pid).claims pid event (claimants deployment history)
      else claimants deployment history
  | .crash _ :: history => claimants deployment history

/-- The claims on each stopped Deployment at the moment of its stop. -/
def claimsAtStops : Chronicle → List (List Pid)
  | [] => []
  | .act _ ⟨.call (.stop deployment _), _⟩ :: history =>
      claimants calls deployment history :: claimsAtStops history
  | _ :: history => claimsAtStops history

/-- The counter of each running record is at least the number of its claims. -/
def Covers (history : Chronicle) (file : File Store.lifecycle.Data) : Prop :=
  ∀ deployment record, file.find? deployment = some record → record.status = .running →
    (claimants calls deployment history).length ≤ record.activeRuns

/-- The counter does not undercount, and no Deployment was stopped under a claim. -/
def NeverUndercounts (history : Chronicle) (world : World) : Prop :=
  Covers calls history (world.board .lifecycle) ∧ ∀ claims ∈ claimsAtStops calls history, claims = []

/-- The process launched the Deployment. -/
def launched (pid : Pid) : Chronicle → Bool
  | [] => false
  | .act other event :: history => launched pid history || (other == pid && launches event.1)
  | .crash _ :: history => launched pid history

/-- The operation replaces the lifecycle file or stops a Deployment. -/
def decisive : Effect → Bool
  | .write .lifecycle _ => true
  | .call (.stop ..) => true
  | _ => false

/-- A launch replaces no claim, and a release gives back a claim that is outstanding when there is one. -/
def LifecycleCall.Entitled (launched : Bool) (data : Dict String LifecycleRecord)
    (outstanding : String → List Pid) : LifecycleCall → Prop
  | .ensure deployment .. => launched = true → runningIn data deployment = true → outstanding deployment = []
  | .release owner deployment .. => outstanding deployment = [] ∨ ∃ pid ∈ owner, pid ∈ outstanding deployment
  | .sweep .. => True

instance (launched : Bool) (data : Dict String LifecycleRecord) (outstanding : String → List Pid) :
    (call : LifecycleCall) → Decidable (call.Entitled launched data outstanding)
  | .ensure deployment .. => inferInstanceAs (Decidable (launched = true → runningIn data deployment = true →
      outstanding deployment = []))
  | .release owner deployment .. => inferInstanceAs (Decidable (outstanding deployment = [] ∨
      ∃ pid ∈ owner, pid ∈ outstanding deployment))
  | .sweep .. => .isTrue trivial

/-- A write is entitled to what it does to the claims. -/
def EntitledWrite (history : Chronicle) (pid : Pid) : Effect → Prop
  | .write .lifecycle data =>
      (calls pid).Entitled (launched pid history) data fun deployment => claimants calls deployment history
  | _ => True

instance (history : Chronicle) (pid : Pid) : (op : Effect) → Decidable (EntitledWrite calls history pid op)
  | .write .lifecycle data => inferInstanceAs (Decidable ((calls pid).Entitled (launched pid history) data
      fun deployment => claimants calls deployment history))
  | .write .connections _ | .write .rules _ | .write .concurrency _ | .write .signalDedupe _
  | .write .responseDedupe _ | .write .pending _ | .write .continuity _ | .write .expiry _ | .write .unmatched _
  | .read _ | .lock _ | .unlock _ | .call _ | .note _ => .isTrue trivial

/-- No other process changed the file since the last read of a process that writes it or stops a Deployment. -/
def freshAndEntitled : StepCondition
  | history, world, .act pid event =>
      (decisive event.1 = true → lastRead .lifecycle pid history = some (world.board .lifecycle)) ∧
        EntitledWrite calls history pid event.1
  | _, _, .crash _ => True

instance : (history : Chronicle) → (world : World) → (label : Label signature Pid) →
    Decidable (freshAndEntitled calls history world label)
  | history, world, .act pid event => inferInstanceAs (Decidable
      ((decisive event.1 = true → lastRead .lifecycle pid history = some (world.board .lifecycle)) ∧
        EntitledWrite calls history pid event.1))
  | _, _, .crash _ => .isTrue trivial

end

section
variable {calls : Pid → LifecycleCall} {history : Chronicle} {world after : World} {pid : Pid}

/-- Each process starts with its call and has seen nothing. -/
def startPhase (calls : Pid → LifecycleCall) (pid : Pid) : Phase := ⟨calls pid, none, false⟩

theorem phase_call (history : Chronicle) (pid : Pid) :
    (counterProtocol.phase (startPhase calls) history pid).call = calls pid :=
  counterProtocol.phase_constant Phase.call (fun _ _ _ => rfl) _ history pid

theorem phase_seen (history : Chronicle) (pid : Pid) :
    (counterProtocol.phase (startPhase calls) history pid).seen = lastRead .lifecycle pid history :=
  view_eq_lastRead counterProtocol .lifecycle Phase.seen (fun _ _ _ => rfl) (fun _ => rfl) history pid

theorem phase_launched (history : Chronicle) (pid : Pid) :
    (counterProtocol.phase (startPhase calls) history pid).launched = launched pid history := by
  induction history with
  | nil => rfl
  | cons label history ih =>
      cases label with
      | crash other => exact ih
      | act other event =>
          by_cases same : pid = other
          · subst other
            rw [Protocol.phase_act_self, launched, ← ih]
            simp
          · rw [Protocol.phase_act_of_ne _ _ same, ih, launched]
            simp [Ne.symm same]

/-- A step that writes nothing takes no claim. -/
theorem claims_length_le {event : signature.Event} (quiet : event.1.writes .lifecycle = false)
    (outstanding : List Pid) (call : LifecycleCall) :
    (call.claims pid event outstanding).length ≤ outstanding.length := by
  obtain ⟨op, answer⟩ := event
  unfold LifecycleCall.claims
  split
  · split
    · rename_i written
      change op = _ at written
      subst written
      cases quiet
    · exact Nat.le_refl _
  · split
    · exact List.length_erase_le
    · exact List.length_erase_le
    · exact Nat.le_refl _
  · exact Nat.le_refl _

/-- A quiet step keeps the file and takes no claim. -/
theorem covers_quiet {file : File Store.lifecycle.Data} {event : signature.Event} (covers : Covers calls history file)
    (quiet : event.1.writes .lifecycle = false) : Covers calls (.act pid event :: history) file := by
  intro deployment record present running
  have before := covers deployment record present running
  rw [claimants]
  split
  · have fewer : ((calls pid).claims pid event (claimants calls deployment history)).length ≤ _ :=
      claims_length_le quiet _ _
    omega
  · exact before

/-- A running record of the data is found by the test. -/
theorem runningIn_of_get? {data : Dict String LifecycleRecord} {deployment : String} {record : LifecycleRecord}
    (present : data.get? deployment = some record) (running : record.status = .running) :
    runningIn data deployment = true := by
  simp [runningIn, present, running]

/-- An entitled write keeps the counter of each running record above its claims. -/
theorem covers_write {file : File Store.lifecycle.Data} {data : Dict String LifecycleRecord}
    (covers : Covers calls history file) (replaces : Replaces (launched pid history) file data (calls pid))
    (entitled : EntitledWrite calls history pid (.write .lifecycle data)) :
    Covers calls (.act pid ⟨Effect.write .lifecycle data, ()⟩ :: history) (.content data) := by
  intro deployment record present running
  rw [File.find?_content] at present
  unfold EntitledWrite at entitled
  rw [claimants]
  cases call : calls pid with
  | ensure target connection now healthTimeout holder =>
      rw [call] at replaces entitled
      by_cases same : target = deployment
      · subst target
        have counted := runningIn_of_get? present running
        simp only [LifecycleCall.target, if_true, LifecycleCall.claims, counted, List.length_cons]
        rcases replaces.2 record present running with ⟨fresh, one⟩ | ⟨old, stored, active, more⟩
        · have none := entitled fresh counted
          simp [none, one]
        · have before := covers deployment old stored active
          omega
      · simp only [LifecycleCall.target, Option.some.injEq, same, if_false]
        rw [replaces.1 deployment (Ne.symm same)] at present
        exact covers deployment record present running
  | release owner target connection now holder =>
      rw [call] at replaces entitled
      by_cases same : target = deployment
      · subst target
        obtain ⟨old, new, stored, active, written, fewer⟩ := replaces.2
        obtain rfl := Option.some.inj (written.symm.trans present)
        have before := covers deployment old stored active
        simp only [LifecycleCall.target, if_true]
        rcases entitled with none | ⟨claimant, owns, outstanding⟩
        · cases owner <;> simp [LifecycleCall.claims, none]
        · obtain rfl : owner = some claimant := owns
          have erased := List.length_erase_of_mem outstanding
          simp only [LifecycleCall.claims, erased, fewer]
          omega
      · simp only [LifecycleCall.target, Option.some.injEq, same, if_false]
        rw [replaces.1 deployment (Ne.symm same)] at present
        exact covers deployment record present running
  | sweep connections now =>
      rw [call] at replaces
      exact covers deployment record (replaces deployment record present running) running

/-- A step that stops no Deployment adds no stop to the history. -/
theorem claimsAtStops_quiet {event : signature.Event} (quiet : decisive event.1 = false) :
    claimsAtStops calls (.act pid event :: history) = claimsAtStops calls history := by
  obtain ⟨op, answer⟩ := event
  cases op with
  | call target => cases target <;> first | rfl | cases quiet
  | _ => rfl

/-- One step keeps the counter above the claims. -/
theorem neverUndercounts_act {op : Effect} {answer : op.Answer} (held : NeverUndercounts calls history world)
    (permitted : counterGuard (counterProtocol.phase (startPhase calls) history pid) op)
    (move : worldStep pid world op answer after)
    (meets : freshAndEntitled calls history world (.act pid ⟨op, answer⟩)) :
    NeverUndercounts calls (.act pid ⟨op, answer⟩ :: history) after := by
  obtain ⟨covers, idle⟩ := held
  cases deciding : decisive op with
  | false =>
      have quiet : op.writes .lifecycle = false := by
        cases op with
        | write store data => cases store <;> first | rfl | cases deciding
        | _ => rfl
      rw [NeverUndercounts, worldStep_frame move quiet, claimsAtStops_quiet deciding]
      exact ⟨covers_quiet covers quiet, idle⟩
  | true =>
      have current := meets.1 deciding
      cases op with
      | write store data =>
          cases store with
          | lifecycle =>
              obtain ⟨file, seen, replaces⟩ := permitted
              rw [phase_seen, current, Option.some.injEq] at seen
              subst seen
              rw [phase_launched, phase_call] at replaces
              obtain rfl := move
              have written := covers_write covers replaces meets.2
              exact ⟨by rwa [World.write_board, Board.put_self], idle⟩
          | _ => cases deciding
      | call target =>
          cases target with
          | stop deployment process =>
              obtain ⟨file, record, seen, stored, running, free⟩ := permitted
              rw [phase_seen, current, Option.some.injEq] at seen
              subst seen
              obtain rfl : after = world := move
              have before := covers deployment record stored running
              rw [free] at before
              have none := List.eq_nil_of_length_eq_zero (Nat.le_zero.mp before)
              refine ⟨covers_quiet covers rfl, ?_⟩
              intro claims member
              rcases List.mem_cons.mp member with rfl | older
              · exact none
              · exact idle claims older
          | _ => cases deciding
      | _ => cases deciding

end

/-- The counter never undercounts in a run whose writers and stoppers act on the current file, whose launches
replace no claim, and whose releases give back a claim that is outstanding. -/
theorem never_undercounts (calls : Pid → LifecycleCall) (board : Board) {history : Chronicle}
    {config : Config signature World Pid (Except Exc Unit)}
    (reached : Reaches worldSharing (freshAndEntitled calls) (fun pid => (calls pid).run.toProgram)
      (World.fresh board) history config) : NeverUndercounts calls history config.shared := by
  apply counterProtocol.invariant (startPhase calls) (fun pid => run_counts (calls pid))
    (fun history world => NeverUndercounts calls history world) ?_ ?_ ?_ reached
  · have none : Covers calls [] (board .lifecycle) := fun _ _ _ _ => Nat.zero_le _
    exact ⟨none, List.forall_mem_nil _⟩
  · intro history world pid op answer after held _ permitted move meets
    exact neverUndercounts_act held permitted move meets
  · exact fun history world pid held _ => held

/-- The managed Deployment of these runs stops as soon as it is idle. -/
def managed : Connection := ⟨"http://localhost", ["serve"], some 0⟩

/-- Two submissions start the Deployment. The first one releases its claim, and a sweep follows. -/
def twoSubmissions (pid : Pid) : LifecycleCall :=
  match pid with
  | 0 | 1 => .ensure "local" managed 0 30 (.hop 0)
  | 2 => .release (some 0) "local" managed 0 (.hop 0)
  | _ => .sweep (Dict.empty.set "local" managed) 0

/-- The Deployment runs already and has no claim. -/
def idleBoard : Board
  | .lifecycle => .content (Dict.empty.set "local" ⟨.running, some 1, 0, some 0, 0, none⟩)
  | _ => .missing

/-- Each call ends before the next one starts. -/
def inOrder : Option (Reached signature World Pid (Except Exc Unit)) :=
  calm.shared.play (freshAndEntitled twoSubmissions) (fun pid => (twoSubmissions pid).run) idleBoard
    (turnsOf 0 4 ++ turnsOf 1 4 ++ turnsOf 2 3 ++ turnsOf 3 1)

theorem never_undercounts_inOrder :
    ∃ reached, inOrder = some reached ∧ claimants twoSubmissions "local" reached.history = [1] ∧
      NeverUndercounts twoSubmissions reached.history reached.config.shared := by
  obtain ⟨reached, played⟩ := Option.isSome_iff_exists.mp (show inOrder.isSome = true by decide +kernel)
  have outstanding : (inOrder.map fun reached => claimants twoSubmissions "local" reached.history) = some [1] := by
    decide +kernel
  rw [played] at outstanding
  exact ⟨reached, played, Option.some.inj outstanding,
    never_undercounts twoSubmissions idleBoard (SharedScript.play_reaches played)⟩

/-- Both submissions read the counter before either of them writes it. -/
def lostCount : Option (Reached signature World Pid (Except Exc Unit)) :=
  calm.shared.play anyStep (fun pid => (twoSubmissions pid).run) idleBoard
    (turnsOf 0 2 ++ turnsOf 1 2 ++ turnsOf 0 2 ++ turnsOf 1 2 ++ turnsOf 2 3 ++ turnsOf 3 3)

/-- The sweep stops the Deployment while the second submission holds its claim. -/
theorem stopped_under_claim :
    ∃ history config, Reaches worldSharing anyStep (fun pid => (twoSubmissions pid).run.toProgram)
      (World.fresh idleBoard) history config ∧ ¬ NeverUndercounts twoSubmissions history config.shared := by
  obtain ⟨reached, played⟩ := Option.isSome_iff_exists.mp (show lostCount.isSome = true by decide +kernel)
  have stopped : (lostCount.map fun reached => claimsAtStops twoSubmissions reached.history) = some [[1]] := by
    decide +kernel
  rw [played] at stopped
  simp only [Option.map_some, Option.some.injEq] at stopped
  refine ⟨reached.history, reached.config, SharedScript.play_reaches played, ?_⟩
  intro held
  have free := held.2 [1] (by rw [stopped]; exact List.mem_singleton_self _)
  cases free

end Cordboard.DeploymentLifecycle
