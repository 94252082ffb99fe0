import Cordboard.Proof.Script
import Cordboard.Proof.Sweep.HandoverSweep

namespace Cordboard.Handover
open Data Effects PendingCompletions Router

/-- Each process runs one sweep with its own clock. -/
structure Sweep where
  timeout : Time
  now : Time

def Sweep.run (sweep : Sweep) : Py (List Observed) := sweepPending sweep.timeout sweep.now

/-- A sweep starts without a read and without a release. -/
def startPhase (_ : Pid) : Phase := ⟨none, none, [], []⟩

/-- The history decides what each process saw, announced, and released. -/
def phaseOf (history : Chronicle) (pid : Pid) : Phase := handover.phase startPhase history pid

theorem phaseOf_act_self (pid : Pid) (event : signature.Event) (history : Chronicle) :
    phaseOf (.act pid event :: history) pid = handoverNext (phaseOf history pid) event.1 event.2 :=
  handover.phase_act_self startPhase pid event history

theorem phaseOf_act_of_ne {pid other : Pid} (different : other ≠ pid) (event : signature.Event) (history : Chronicle) :
    phaseOf (.act pid event :: history) other = phaseOf history other :=
  handover.phase_act_of_ne startPhase different event history

section
variable (claim : Claim)

/-- The number of records that were written with this claim. -/
def recordings : Chronicle → Nat
  | [] => 0
  | .act pid ⟨.write .pending _, _⟩ :: history =>
      if (phaseOf history pid).announces claim then recordings history + 1 else recordings history
  | _ :: history => recordings history

/-- The first read of a sweep decides which recording of the claim it has seen. -/
def claimSeen (pid : Pid) : Chronicle → Option Nat
  | [] => none
  | .act other ⟨.read .pending, _⟩ :: history =>
      if other = pid ∧ claimSeen pid history = none then some (recordings claim history) else claimSeen pid history
  | _ :: history => claimSeen pid history

/-- The recording that each effective release of the claim was made for. -/
def releases : Chronicle → List (Option Nat)
  | [] => []
  | .act pid event :: history =>
      if releasedBy event.1 = some claim then claimSeen claim pid history :: releases history else releases history
  | .crash _ :: history => releases history

/-- The file still records the claim that the sweep saw, and no other sweep that saw it has released it without
clearing it. -/
def Undisturbed (history : Chronicle) (world : World) (pid : Pid) : Prop :=
  records (world.board .pending).find? claim = true ∧
    claimSeen claim pid history = some (recordings claim history) ∧
    ∀ label ∈ history, label.pid = pid ∨ claim ∉ (phaseOf history label.pid).opened ∨
      claimSeen claim label.pid history ≠ some (recordings claim history)

instance (history : Chronicle) (world : World) (pid : Pid) : Decidable (Undisturbed claim history world pid) :=
  inferInstanceAs (Decidable (_ ∧ _ ∧ ∀ label ∈ history, _ ∨ _ ∨ _))

end

/-- Each recorded claim is released at most once on behalf of its entry. -/
def ReleasedOnce (history : Chronicle) : Prop := ∀ claim, (releases claim history).Nodup

/-- No sweep releases a claim that another one is releasing, and no write loses another one. -/
def apartFromOthers : StepCondition
  | history, world, .act pid event =>
      (event.1.writes .pending = true → lastRead .pending pid history = some (world.board .pending)) ∧
        ∀ claim ∈ releasedBy event.1, Undisturbed claim history world pid
  | _, _, .crash _ => True

instance : (history : Chronicle) → (world : World) → (label : Label signature Pid) →
    Decidable (apartFromOthers history world label)
  | history, world, .act pid event => inferInstanceAs (Decidable
      ((event.1.writes .pending = true → lastRead .pending pid history = some (world.board .pending)) ∧
        ∀ claim ∈ releasedBy event.1, Undisturbed claim history world pid))
  | _, _, .crash _ => .isTrue trivial

section
variable {claim : Claim} {history : Chronicle} {world after : World} {pid : Pid}

theorem phase_seen (history : Chronicle) (pid : Pid) : (phaseOf history pid).seen = lastRead .pending pid history := by
  apply view_eq_lastRead handover .pending Phase.seen ?_ (fun _ => rfl) history pid
  intro phase op answer
  cases op with
  | read store => cases store <;> rfl
  | write store data => cases store <;> rfl
  | note point =>
      cases point with
      | pendingChanged deployment threadId change => cases change <;> rfl
      | _ => rfl
  | _ => rfl

/-- An open claim was released. -/
theorem opened_subset_done (history : Chronicle) (pid : Pid) :
    ∀ claim ∈ (phaseOf history pid).opened, claim ∈ (phaseOf history pid).done := by
  induction history with
  | nil => exact List.forall_mem_nil _
  | cons label history ih =>
      cases label with
      | crash other => exact ih
      | act other event =>
          by_cases same : pid = other
          · subst other
            rw [phaseOf_act_self]
            have grown : ∀ claim ∈ (releasedBy event.1).toList ++ (phaseOf history pid).opened,
                claim ∈ (releasedBy event.1).toList ++ (phaseOf history pid).done := by
              intro claim member
              rcases List.mem_append.mp member with new | old
              · exact List.mem_append_left _ new
              · exact List.mem_append_right _ (ih claim old)
            obtain ⟨op, answer⟩ := event
            cases op with
            | read store =>
                cases store <;> first | exact grown | exact fun claim member => ih claim (List.mem_of_mem_filter member)
            | write store data => cases store <;> first | exact grown | exact List.forall_mem_nil _
            | note point =>
                cases point with
                | pendingChanged deployment threadId change => cases change <;> exact ih
                | _ => exact grown
            | _ => exact grown
          · rw [phaseOf_act_of_ne same]
            exact ih

/-- A claim stays open until the process writes the file or reads that it is cleared. -/
theorem opened_next {phase : Phase} {op : Effect} {answer : op.Answer} (member : claim ∈ phase.opened)
    (move : worldStep pid world op answer after) (recorded : records (world.board .pending).find? claim = true)
    (quiet : op.writes .pending = false) : claim ∈ (handoverNext phase op answer).opened := by
  have grown : claim ∈ (releasedBy op).toList ++ phase.opened := List.mem_append_right _ member
  cases op with
  | read store =>
      cases store with
      | pending =>
          obtain ⟨rfl, -⟩ := move
          exact List.mem_filter.mpr ⟨member, recorded⟩
      | _ => exact grown
  | write store data => cases store <;> first | exact grown | cases quiet
  | note point =>
      cases point with
      | pendingChanged deployment threadId change => cases change <;> exact member
      | _ => exact grown
  | _ => exact grown

/-- A step that writes no pending file adds no recording. -/
theorem recordings_quiet {event : signature.Event} (quiet : event.1.writes .pending = false) :
    recordings claim (.act pid event :: history) = recordings claim history := by
  obtain ⟨op, answer⟩ := event
  cases op with
  | write store data => cases store <;> first | rfl | cases quiet
  | _ => rfl

/-- The recording that a sweep has seen stays the same. -/
theorem claimSeen_stable {other : Pid} {count : Nat} (seen : claimSeen claim pid history = some count)
    (event : signature.Event) : claimSeen claim pid (.act other event :: history) = some count := by
  obtain ⟨op, answer⟩ := event
  cases op with
  | read store =>
      cases store with
      | pending =>
          unfold claimSeen
          simp [seen]
      | _ => exact seen
  | _ => exact seen

/-- Each release of the claim was made for a recording, and the claim of the file is open once it was released. -/
structure Holds (claim : Claim) (history : Chronicle) (world : World) : Prop where
  bounded : ∀ seen ∈ releases claim history, ∃ count ≤ recordings claim history, seen = some count
  once : (releases claim history).Nodup
  opened : some (recordings claim history) ∈ releases claim history →
    records (world.board .pending).find? claim = true →
      ∃ label ∈ history, claim ∈ (phaseOf history label.pid).opened ∧
        claimSeen claim label.pid history = some (recordings claim history)

theorem holds_start (claim : Claim) (world : World) : Holds claim [] world where
  bounded := List.forall_mem_nil _
  once := List.nodup_nil
  opened released := absurd released List.not_mem_nil

theorem holds_crash (holds : Holds claim history world) :
    Holds claim (.crash pid :: history) (World.stop pid world) where
  bounded := holds.bounded
  once := holds.once
  opened released recorded := by
    obtain ⟨label, member, opened, seen⟩ := holds.opened released recorded
    exact ⟨label, List.mem_cons_of_mem _ member, opened, seen⟩

/-- An open claim of another process stays open. -/
theorem opened_of_ne {event : signature.Event} {label : Label signature Pid} (member : label ∈ history)
    (different : label.pid ≠ pid) (opened : claim ∈ (phaseOf history label.pid).opened) {count : Nat}
    (seen : claimSeen claim label.pid history = some count) :
    ∃ label ∈ Label.act pid event :: history, claim ∈ (phaseOf (.act pid event :: history) label.pid).opened ∧
      claimSeen claim label.pid (.act pid event :: history) = some count := by
  refine ⟨label, List.mem_cons_of_mem _ member, ?_, claimSeen_stable seen event⟩
  rwa [phaseOf_act_of_ne different]

/-- A step that writes no pending file and does not release the claim keeps the invariant. -/
theorem holds_quiet {op : Effect} {answer : op.Answer} (holds : Holds claim history world)
    (move : worldStep pid world op answer after) (quiet : op.writes .pending = false)
    (unreleased : releasedBy op ≠ some claim) : Holds claim (.act pid ⟨op, answer⟩ :: history) after := by
  have count : recordings claim (.act pid ⟨op, answer⟩ :: history) = recordings claim history := recordings_quiet quiet
  have same : releases claim (.act pid ⟨op, answer⟩ :: history) = releases claim history := if_neg unreleased
  refine ⟨by rw [count, same]; exact holds.bounded, by rw [same]; exact holds.once, ?_⟩
  rw [count, same, worldStep_frame move quiet]
  intro released recorded
  obtain ⟨label, member, opened, seen⟩ := holds.opened released recorded
  by_cases own : label.pid = pid
  · refine ⟨label, List.mem_cons_of_mem _ member, ?_, claimSeen_stable seen _⟩
    rw [own, phaseOf_act_self]
    exact opened_next (own ▸ opened) move recorded quiet
  · exact opened_of_ne member own opened seen

/-- A write of the current file keeps the invariant. -/
theorem holds_write {data : Dict Pair PendingEntry} (holds : Holds claim history world)
    (permitted : handoverGuard (phaseOf history pid) (.write .pending data))
    (current : lastRead .pending pid history = some (world.board .pending)) :
    Holds claim (.act pid ⟨Effect.write .pending data, ()⟩ :: history) (world.write .pending data) := by
  have same : releases claim (.act pid ⟨Effect.write .pending data, ()⟩ :: history) = releases claim history := rfl
  obtain ⟨file, seen, kept⟩ := permitted
  rw [phase_seen, current, Option.some.injEq] at seen
  subst seen
  cases announced : (phaseOf history pid).announces claim with
  | true =>
      have count : recordings claim (.act pid ⟨Effect.write .pending data, ()⟩ :: history) =
          recordings claim history + 1 := if_pos announced
      refine ⟨?_, by rw [same]; exact holds.once, ?_⟩
      · rw [same, count]
        intro seen member
        obtain ⟨older, bound, equal⟩ := holds.bounded seen member
        exact ⟨older, by omega, equal⟩
      · rw [same, count]
        intro released
        obtain ⟨older, bound, equal⟩ := holds.bounded _ released
        have impossible := Option.some.inj equal
        omega
  | false =>
      have count : recordings claim (.act pid ⟨Effect.write .pending data, ()⟩ :: history) =
          recordings claim history := if_neg (by simp [announced])
      refine ⟨by rw [same, count]; exact holds.bounded, by rw [same]; exact holds.once, ?_⟩
      rw [same, count, World.write_board, Board.put_self]
      intro released recorded
      rcases kept claim recorded with new | ⟨stored, unopened⟩
      · rw [announced] at new
        cases new
      · obtain ⟨label, member, opened, seen⟩ := holds.opened released stored
        have different : label.pid ≠ pid := fun own => unopened (own ▸ opened)
        exact opened_of_ne member different opened seen

/-- A release of a claim that no other sweep is releasing keeps the invariant. -/
theorem holds_release {op : Effect} {answer : op.Answer} (holds : Holds claim history world)
    (released : releasedBy op = some claim) (unspent : claim ∉ (phaseOf history pid).done)
    (undisturbed : Undisturbed claim history world pid) : Holds claim (.act pid ⟨op, answer⟩ :: history) world := by
  obtain ⟨recorded, current, apart⟩ := undisturbed
  have quiet : op.writes .pending = false := by
    cases op with
    | note point => rfl
    | _ => cases released
  have count : recordings claim (.act pid ⟨op, answer⟩ :: history) = recordings claim history := recordings_quiet quiet
  have grown : releases claim (.act pid ⟨op, answer⟩ :: history) =
      some (recordings claim history) :: releases claim history := (if_pos released).trans (by rw [current])
  have new : some (recordings claim history) ∉ releases claim history := by
    intro member
    obtain ⟨label, inside, opened, seen⟩ := holds.opened member recorded
    rcases apart label inside with own | closed | older
    · exact unspent (opened_subset_done history pid claim (own ▸ opened))
    · exact closed opened
    · exact older seen
  refine ⟨?_, ?_, ?_⟩
  · rw [grown, count]
    exact List.forall_mem_cons.mpr ⟨⟨_, Nat.le_refl _, rfl⟩, holds.bounded⟩
  · rw [grown]
    exact List.nodup_cons.mpr ⟨new, holds.once⟩
  · intro _ _
    refine ⟨_, List.mem_cons_self .., ?_, ?_⟩
    · change claim ∈ (phaseOf (.act pid ⟨op, answer⟩ :: history) pid).opened
      rw [phaseOf_act_self]
      have opening : claim ∈ (releasedBy op).toList ++ (phaseOf history pid).opened := by simp [released]
      cases op with
      | note point =>
          cases point with
          | pendingChanged deployment threadId change => cases released
          | _ => exact opening
      | _ => cases released
    · rw [count]
      exact claimSeen_stable current _

/-- One step keeps the invariant. -/
theorem holds_act {op : Effect} {answer : op.Answer} (holds : Holds claim history world)
    (permitted : handoverGuard (phaseOf history pid) op) (move : worldStep pid world op answer after)
    (meets : apartFromOthers history world (.act pid ⟨op, answer⟩)) :
    Holds claim (.act pid ⟨op, answer⟩ :: history) after := by
  by_cases released : releasedBy op = some claim
  · cases op with
    | note point =>
        obtain rfl : after = world := move
        have unspent : claim ∉ (phaseOf history pid).done := permitted claim released
        exact holds_release holds released unspent (meets.2 claim released)
    | _ => cases released
  · cases quiet : op.writes .pending with
    | false => exact holds_quiet holds move quiet released
    | true =>
        cases op with
        | write store data =>
            obtain rfl : store = .pending := by simpa [Effect.writes] using quiet
            obtain rfl := move
            exact holds_write holds permitted (meets.1 quiet)
        | _ => cases quiet

end

/-- Each recorded claim is released at most once in a run whose sweeps do not release the same claim side by side
and whose writes lose no other write. -/
theorem released_once (sweeps : Pid → Sweep) (board : Board) {history : Chronicle}
    {config : Config signature World Pid (Except Exc (List Observed))}
    (reached : Reaches worldSharing apartFromOthers (fun pid => (sweeps pid).run.toProgram) (World.fresh board)
      history config) : ReleasedOnce history := by
  intro claim
  have holds : Holds claim history config.shared := by
    apply handover.invariant startPhase (fun pid => sweepPending_hands (sweeps pid).timeout (sweeps pid).now)
      (Holds claim) (holds_start claim _) ?_ ?_ reached
    · intro history world pid op answer after holds _ permitted move meets
      exact holds_act holds permitted move meets
    · exact fun history world pid holds _ => holds_crash holds
  exact holds.once

/-- Each tracked Run has failed. -/
def failed : Script := fun past target =>
  match target with
  | .describeRun .. => .ok ⟨some "graph", "error", some "42"⟩
  | target => calm past target

/-- One Thread of a managed Deployment is tracked with both claims, and a second Run is active there. -/
def heldBoard : Board
  | .connections => .content (Dict.empty.set "local" ⟨"http://localhost", ["serve"], none⟩)
  | .lifecycle => .content (Dict.empty.set "local" ⟨.running, some 1, 2, some 0, 0, none⟩)
  | .concurrency => .content (Dict.empty.set ("graph", "42") ⟨0⟩)
  | .pending => .content (Dict.empty.set ("local", "thread-1")
      ⟨"local", "thread-1", "run-1", "graph", "42", 0, true, true, 0⟩)
  | _ => .missing

/-- Every sweep of these runs has the same clock. -/
def sweepNow (_ : Pid) : Sweep := ⟨120, 1⟩

/-- The second sweep starts after the first one has ended. -/
def oneByOne : Option (Reached signature World Pid (Except Exc (List Observed))) :=
  failed.shared.play apartFromOthers (fun pid => (sweepNow pid).run) heldBoard (turnsOf 0 15 ++ turnsOf 1 2)

theorem released_once_oneByOne :
    ∃ reached, oneByOne = some reached ∧
      releases (("local", "thread-1"), .activity) reached.history = [some 0] ∧ ReleasedOnce reached.history := by
  obtain ⟨reached, played⟩ := Option.isSome_iff_exists.mp (show oneByOne.isSome = true by decide +kernel)
  have released : (oneByOne.map fun reached => releases (("local", "thread-1"), .activity) reached.history) =
      some [some 0] := by decide +kernel
  rw [played] at released
  exact ⟨reached, played, Option.some.inj released,
    released_once sweepNow heldBoard (SharedScript.play_reaches played)⟩

/-- Both sweeps take their snapshots before either of them releases the claim. -/
def sideBySide : Option (Reached signature World Pid (Except Exc (List Observed))) :=
  failed.shared.play anyStep (fun pid => (sweepNow pid).run) heldBoard
    (turnsOf 0 4 ++ turnsOf 1 4 ++ turnsOf 0 3 ++ turnsOf 1 3)

/-- The activity claim of one entry is released twice. -/
theorem released_twice :
    ∃ history config, Reaches worldSharing anyStep (fun pid => (sweepNow pid).run.toProgram) (World.fresh heldBoard)
      history config ∧ ¬ ReleasedOnce history := by
  obtain ⟨reached, played⟩ := Option.isSome_iff_exists.mp (show sideBySide.isSome = true by decide +kernel)
  have released : (sideBySide.map fun reached => releases (("local", "thread-1"), .activity) reached.history) =
      some [some 0, some 0] := by decide +kernel
  rw [played] at released
  simp only [Option.map_some, Option.some.injEq] at released
  refine ⟨reached.history, reached.config, SharedScript.play_reaches played, ?_⟩
  intro once
  have distinct := once (("local", "thread-1"), .activity)
  rw [released] at distinct
  simp at distinct

end Cordboard.Handover
