import Cordboard.Construction.Lifecycle
import Cordboard.Proof.Frame
import Cordboard.Proof.Stores

namespace Cordboard.DeploymentLifecycle
open Data Effects

/-- Each process makes one call of the module. A release names the process whose claim it drops. -/
inductive LifecycleCall where
  | ensure (deployment : String) (connection : Connection) (now healthTimeout : Time) (holder : Holder)
  | release (owner : Option Pid) (deployment : String) (connection : Connection) (now : Time) (holder : Holder)
  | sweep (connections : Dict String Connection) (now : Time)

def LifecycleCall.run : LifecycleCall → Py Unit
  | ensure deployment connection now healthTimeout holder => do
      let _ ← ensureStarted deployment connection now healthTimeout holder
  | release _ deployment connection now holder => releaseActive deployment connection now holder
  | sweep connections now => do
      let _ ← stopIdle connections now

/-- The operation starts the process of a Deployment. -/
def launches : Effect → Bool
  | .call (.launch ..) => true
  | _ => false

/-- A process remembers its call, the file that it read last, and whether it launched the Deployment. -/
structure Phase where
  call : LifecycleCall
  seen : Option (File Store.lifecycle.Data)
  launched : Bool

/-- An update keeps the record of every other Deployment. -/
def KeepsOthers (deployment : String) (file : File (Dict String LifecycleRecord))
    (data : Dict String LifecycleRecord) : Prop :=
  ∀ other, other ≠ deployment → data.get? other = file.find? other

/-- A running record of the new file is also in the old one. -/
def StopsOnly (file : File (Dict String LifecycleRecord)) (data : Dict String LifecycleRecord) : Prop :=
  ∀ deployment record, data.get? deployment = some record → record.status = .running →
    file.find? deployment = some record

/-- A start adds one claim to the running record, or launches a record with one claim. -/
def Starts (deployment : String) (launched : Bool) (file : File (Dict String LifecycleRecord))
    (data : Dict String LifecycleRecord) : Prop :=
  ∀ record, data.get? deployment = some record → record.status = .running →
    launched = true ∧ record.activeRuns = 1 ∨
      ∃ old, file.find? deployment = some old ∧ old.status = .running ∧ record.activeRuns = old.activeRuns + 1

/-- A release takes one claim from the running record. -/
def Drops (deployment : String) (file : File (Dict String LifecycleRecord))
    (data : Dict String LifecycleRecord) : Prop :=
  ∃ old record, file.find? deployment = some old ∧ old.status = .running ∧ data.get? deployment = some record ∧
    record.activeRuns = old.activeRuns - 1

/-- The call decides what its write does to the file that the process read. -/
def Replaces (launched : Bool) (file : File (Dict String LifecycleRecord)) (data : Dict String LifecycleRecord) :
    LifecycleCall → Prop
  | .ensure deployment .. => KeepsOthers deployment file data ∧ Starts deployment launched file data
  | .release _ deployment .. => KeepsOthers deployment file data ∧ Drops deployment file data
  | .sweep .. => StopsOnly file data

/-- A process writes what follows from its own read, and stops a Deployment that it saw without claims. -/
def counterGuard (phase : Phase) : Effect → Prop
  | .write .lifecycle data => ∃ file, phase.seen = some file ∧ Replaces phase.launched file data phase.call
  | .call (.stop deployment _) => ∃ file record, phase.seen = some file ∧ file.find? deployment = some record ∧
      record.status = .running ∧ record.activeRuns = 0
  | _ => True

/-- This protocol follows one call on the lifecycle file. -/
abbrev counterProtocol : Protocol signature where
  Phase := Phase
  guard := counterGuard
  next phase op answer := ⟨phase.call, readBy .lifecycle op answer phase.seen, phase.launched || launches op⟩

section
variable {deployment : String} {file : File (Dict String LifecycleRecord)} {data : Dict String LifecycleRecord}

/-- An assignment changes one record of the decoded file. -/
theorem keepsOthers_set (decoded : decode .lifecycle file = .ok data) (record : LifecycleRecord) :
    KeepsOthers deployment file (Store.lifecycle.sorted (data.set deployment record)) := by
  intro other different
  rw [get?_sorted, find?_of_decode decoded]
  exact data.get?_set_of_ne different record

/-- The written record decides a start. -/
theorem starts_set {launched : Bool} {record : LifecycleRecord}
    (counts : record.status = .running → launched = true ∧ record.activeRuns = 1 ∨
      ∃ old, file.find? deployment = some old ∧ old.status = .running ∧ record.activeRuns = old.activeRuns + 1) :
    Starts deployment launched file (Store.lifecycle.sorted (data.set deployment record)) := by
  intro stored present running
  rw [get?_sorted, Dict.get?_set_self] at present
  obtain rfl := Option.some.inj present
  exact counts running

/-- A process writes after its own read of the file. -/
theorem counterGuard_write {call : LifecycleCall} {launched : Bool}
    (replaces : Replaces launched file (Store.lifecycle.sorted data) call) :
    counterGuard ⟨call, some file, launched⟩ (.write .lifecycle (Store.lifecycle.sorted data)) :=
  ⟨file, rfl, replaces⟩

end

section
variable {phase : Phase} {deployment : String} {connection : Connection} {now healthTimeout : Time} {holder : Holder}

/-- A failed start records no claim. -/
theorem recordStartFailed_counts {file : File (Dict String LifecycleRecord)} {data : Dict String LifecycleRecord}
    (decoded : decode .lifecycle file = .ok data) (launched : Bool) (pid : Option Nat) (error : String) :
    Fallible.wp counterProtocol.machine (recordStartFailed deployment data pid now error) (fun _ _ _ => True)
      ⟨.ensure deployment connection now healthTimeout holder, some file, launched⟩ := by
  simp only [recordStartFailed, Fallible.wp_bind, wp_writeAtomic]
  have written : KeepsOthers deployment file _ := keepsOthers_set decoded
    ⟨.startFailed, pid, 0, none, now, some error⟩
  refine ⟨counterGuard_write ⟨written, ?_⟩, fun _ _ => trivial⟩
  apply starts_set
  intro running
  cases running

/-- A launch records one claim after it started the process. -/
theorem launchDeployment_counts {file : File (Dict String LifecycleRecord)} {data : Dict String LifecycleRecord}
    (decoded : decode .lifecycle file = .ok data) :
    Fallible.wp counterProtocol.machine (launchDeployment deployment connection data now healthTimeout holder)
      (fun _ _ _ => True) ⟨.ensure deployment connection now healthTimeout holder, some file, false⟩ := by
  simp only [launchDeployment, Fallible.wp_bind, wp_call]
  refine ⟨trivial, ?_⟩
  intro launched after moved
  obtain rfl : after = ⟨.ensure deployment connection now healthTimeout holder, some file, true⟩ := moved
  cases launched with
  | error exc =>
      rw [Fallible.after_ok]
      dsimp only
      split
      · exact recordStartFailed_counts decoded true _ _
      · trivial
  | ok pid =>
      simp only [Fallible.after_ok, Fallible.wp_bind, wp_call]
      refine ⟨trivial, ?_⟩
      intro healthy after moved
      obtain rfl : after = ⟨.ensure deployment connection now healthTimeout holder, some file, true⟩ := moved
      simp only [Fallible.wp_ite]
      split
      · simp only [Fallible.wp_bind, wp_writeAtomic, Fallible.after_ok, wp_note, Fallible.wp_pure]
        have written : KeepsOthers deployment file _ := keepsOthers_set decoded
          ⟨.running, some pid, 1, some now, now, none⟩
        refine ⟨counterGuard_write ⟨written, ?_⟩, fun _ _ => ⟨trivial, fun _ _ => trivial⟩⟩
        apply starts_set
        intro running
        exact .inl ⟨rfl, rfl⟩
      · exact recordStartFailed_counts decoded true _ _

/-- A start obeys the protocol. -/
theorem ensureStarted_counts :
    Fallible.wp counterProtocol.machine (ensureStarted deployment connection now healthTimeout holder)
      (fun _ _ _ => True) ⟨.ensure deployment connection now healthTimeout holder, none, false⟩ := by
  unfold ensureStarted
  split
  · trivial
  simp only [Fallible.wp_bind, loadLifecycle, wp_load]
  refine ⟨trivial, ?_⟩
  intro file after moved
  obtain rfl : after = ⟨.ensure deployment connection now healthTimeout holder, some file, false⟩ := moved
  cases decoded : decode .lifecycle file with
  | error exc => trivial
  | ok data =>
      rw [Fallible.after_ok]
      have launch : Fallible.wp counterProtocol.machine
          (launchDeployment deployment connection data now healthTimeout holder) (fun _ _ _ => True)
          ⟨.ensure deployment connection now healthTimeout holder, some file, false⟩ :=
        launchDeployment_counts decoded
      unfold verifiedRecord
      cases present : data.get? deployment with
      | none => exact launch
      | some record =>
          by_cases running : record.status = .running
          · simp only [running, if_true, Fallible.wp_bind, wp_call]
            refine ⟨trivial, ?_⟩
            intro alive after moved
            obtain rfl : after = ⟨.ensure deployment connection now healthTimeout holder, some file, false⟩ := moved
            cases alive with
            | false => exact launch
            | true =>
                simp only [if_true, Fallible.after_ok, Fallible.wp_pure, Fallible.wp_bind, wp_writeAtomic, wp_note]
                have written : KeepsOthers deployment file _ := keepsOthers_set decoded
                  { record with activeRuns := record.activeRuns + 1, lastActive := now }
                refine ⟨counterGuard_write ⟨written, ?_⟩, fun _ _ => ⟨trivial, fun _ _ => trivial⟩⟩
                apply starts_set
                intro running
                exact .inr ⟨record, (find?_of_decode decoded deployment).trans present, running, rfl⟩
          · simp only [running, if_false]
            exact launch

/-- A release obeys the protocol. -/
theorem releaseActive_counts (owner : Option Pid) :
    Fallible.wp counterProtocol.machine (releaseActive deployment connection now holder) (fun _ _ _ => True)
      ⟨.release owner deployment connection now holder, none, false⟩ := by
  unfold releaseActive
  split
  · exact ⟨trivial, fun _ _ _ => trivial⟩
  simp only [Fallible.wp_bind, loadLifecycle, wp_load]
  refine ⟨trivial, ?_⟩
  intro file after moved
  obtain rfl : after = ⟨.release owner deployment connection now holder, some file, false⟩ := moved
  cases decoded : decode .lifecycle file with
  | error exc => trivial
  | ok data =>
      rw [Fallible.after_ok]
      cases present : data.get? deployment with
      | none => exact ⟨trivial, fun _ _ _ => trivial⟩
      | some record =>
          simp only [Fallible.wp_ite, Fallible.wp_bind, wp_note, wp_writeAtomic, Fallible.after_ok]
          split
          · rename_i running
            refine ⟨trivial, ?_⟩
            intro after moved
            obtain rfl : after = ⟨.release owner deployment connection now holder, some file, false⟩ := moved
            have written : KeepsOthers deployment file _ := keepsOthers_set decoded
              { record with activeRuns := record.activeRuns - 1, lastActive := now }
            have stored := (find?_of_decode decoded deployment).trans present
            refine ⟨counterGuard_write ⟨written, record, ?_⟩, fun _ _ => trivial⟩
            refine ⟨{ record with activeRuns := record.activeRuns - 1, lastActive := now }, stored, running, ?_, rfl⟩
            rw [get?_sorted, Dict.get?_set_self]
          · exact ⟨trivial, fun _ _ => trivial⟩

/-- An idle record is running and has no claim. -/
theorem idle_facts {connections : Dict String Connection} {record : LifecycleRecord}
    (idle : isIdle connections now deployment record = true) : record.status = .running ∧ record.activeRuns = 0 := by
  unfold isIdle at idle
  split at idle
  · cases idle
  · simp only [Bool.and_eq_true, beq_iff_eq] at idle
    exact ⟨idle.1.1.2, idle.1.2⟩

/-- A stopped record joins the stopped records. -/
theorem StopsOnly.stop {file : File (Dict String LifecycleRecord)} {data : Dict String LifecycleRecord}
    (stops : StopsOnly file data) (deployment : String) (record : LifecycleRecord) :
    StopsOnly file (data.set deployment { record with status := .stopped, pid := none }) := by
  intro other stored present running
  rw [Dict.get?_set] at present
  split at present
  · obtain rfl := Option.some.inj present
    cases running
  · exact stops other stored present running

/-- The decoded file has stopped nothing yet, and its items are its records. -/
theorem stopsOnly_decoded {file : File (Dict String LifecycleRecord)} {data : Dict String LifecycleRecord}
    (decoded : decode .lifecycle file = .ok data) :
    StopsOnly file data ∧ ∀ item ∈ data.items, file.find? item.1 = some item.2 := by
  constructor
  · exact fun deployment record present _ => (find?_of_decode decoded deployment).trans present
  · intro item member
    rw [find?_of_decode decoded]
    exact (data.get?_eq_some_iff _ _).mpr member

/-- What each stop of an idle record keeps is kept by a pass, which stops idle records of the file only and changes no
other record to a running one. -/
theorem stopEach_keeps {S : Type} {machine : Machine signature S} {holds : S → Prop}
    {file : File (Dict String LifecycleRecord)} {connections : Dict String Connection}
    (each : ∀ deployment record, file.find? deployment = some record → isIdle connections now deployment record = true →
      ∀ s, holds s → machine.guard s (Effect.call (.stop deployment record.pid)) ∧
        ∀ answer after, machine.step s (Effect.call (.stop deployment record.pid)) answer after → holds after)
    (items : List (String × LifecycleRecord)) (stored : ∀ item ∈ items, file.find? item.1 = some item.2)
    (data : Dict String LifecycleRecord) (stops : StopsOnly file data) {s : S} (held : holds s) :
    Fallible.wp machine (stopEach connections now items data) (fun _ outcome after =>
      holds after ∧ ∀ result, outcome = .ok result → StopsOnly file result.1) s := by
  induction items generalizing data s with
  | nil =>
      refine ⟨held, ?_⟩
      intro result returned
      obtain rfl := Except.ok.inj returned
      exact stops
  | cons item rest ih =>
      obtain ⟨here, later⟩ := List.forall_mem_cons.mp stored
      unfold stopEach
      by_cases idle : isIdle connections now item.1 item.2 = true
      · obtain ⟨permitted, kept⟩ := each item.1 item.2 here idle s held
        simp only [idle, if_true, Fallible.wp_bind, wp_call]
        refine ⟨permitted, ?_⟩
        intro answer middle moved
        rw [Fallible.after_ok, Fallible.wp_bind]
        apply Fallible.wp_mono (ih later _ (stops.stop _ _) (kept answer middle moved))
        rintro trace outcome after ⟨held, result⟩
        cases outcome with
        | error exc => exact ⟨held, fun _ returned => by cases returned⟩
        | ok value =>
            refine ⟨held, ?_⟩
            intro final returned
            obtain rfl := Except.ok.inj returned
            exact result value rfl
      · simp only [idle]
        exact ih later data stops held

/-- A sweep obeys the protocol. -/
theorem stopIdle_counts (connections : Dict String Connection) :
    Fallible.wp counterProtocol.machine (stopIdle connections now) (fun _ _ _ => True)
      ⟨.sweep connections now, none, false⟩ := by
  simp only [stopIdle, Fallible.wp_bind, loadLifecycle, wp_load]
  refine ⟨trivial, ?_⟩
  intro file after moved
  obtain rfl : after = ⟨.sweep connections now, some file, false⟩ := moved
  cases decoded : decode .lifecycle file with
  | error exc => trivial
  | ok data =>
      rw [Fallible.after_ok, Fallible.wp_bind]
      obtain ⟨unchanged, stored⟩ := stopsOnly_decoded decoded
      have each := @stopEach_keeps now Phase counterProtocol.machine (· = ⟨.sweep connections now, some file, false⟩) file
        connections ?_ data.items stored data unchanged _ rfl
      · apply Fallible.wp_mono each
        rintro trace outcome after ⟨rfl, result⟩
        cases outcome with
        | error exc => trivial
        | ok value =>
            simp only [Fallible.after_ok, Fallible.wp_bind, wp_whenever, wp_writeAtomic]
            split
            · refine ⟨counterGuard_write ?_, fun _ _ => trivial⟩
              intro deployment record present running
              rw [get?_sorted] at present
              exact result value rfl deployment record present running
            · trivial
      · rintro deployment record here idle _ rfl
        obtain ⟨running, free⟩ := idle_facts idle
        exact ⟨⟨file, record, rfl, here, running, free⟩, fun _ _ moved => moved⟩

/-- Each call of the module obeys the protocol. -/
theorem run_counts (call : LifecycleCall) :
    Fallible.wp counterProtocol.machine call.run (fun _ _ _ => True) ⟨call, none, false⟩ := by
  cases call with
  | ensure deployment connection now healthTimeout holder =>
      exact Fallible.wp_seq ensureStarted_counts (fun _ _ _ _ => trivial) fun _ _ _ _ => trivial
  | release owner deployment connection now holder => exact releaseActive_counts owner
  | sweep connections now =>
      exact Fallible.wp_seq (stopIdle_counts connections) (fun _ _ _ _ => trivial) fun _ _ _ _ => trivial

end

end Cordboard.DeploymentLifecycle
