import Cordboard.Proof.Frame
import Cordboard.Proof.Script
import Cordboard.Proof.Stores

namespace Cordboard.PendingCompletions
open Data Effects

/-- Each process makes one call of the module. -/
inductive PendingCall where
  | record (deployment threadId invocationId assistant subject : String) (cascadeDepth : Nat)
      (concurrencyHeld deploymentHeld : Bool) (now : Time)
  | update (deployment threadId : String) (invocationId : Option String)
      (concurrencyHeld deploymentHeld : Option Bool) (now : Time)
  | resolve (deployment threadId : String)

namespace PendingCall

def run : PendingCall → Py Unit
  | record deployment threadId invocationId assistant subject cascadeDepth concurrencyHeld deploymentHeld now =>
      recordPending deployment threadId invocationId assistant subject cascadeDepth concurrencyHeld deploymentHeld now
  | update deployment threadId invocationId concurrencyHeld deploymentHeld now => do
      let _ ← updatePending deployment threadId invocationId concurrencyHeld deploymentHeld now
  | resolve deployment threadId => do
      let _ ← resolvePending deployment threadId

/-- The (Deployment, Thread) pair of the call. -/
def pair : PendingCall → Pair
  | record deployment threadId .. => (deployment, threadId)
  | update deployment threadId .. => (deployment, threadId)
  | resolve deployment threadId => (deployment, threadId)

def isRecord : PendingCall → Bool
  | record .. => true
  | _ => false

def isResolve : PendingCall → Bool
  | resolve .. => true
  | _ => false

end PendingCall

section
variable (calls : Pid → PendingCall) (pair : Pair)

/-- These processes wrote a record of the pair, and no `resolve_pending` of it ran since. -/
def recorders : Chronicle → List Pid
  | [] => []
  | .act pid event :: history =>
      if (calls pid).isResolve && (calls pid).pair == pair then []
      else if (calls pid).isRecord && (calls pid).pair == pair && event.1.writes .pending then
        pid :: recorders history
      else recorders history
  | .crash _ :: history => recorders history

/-- The call of this process has returned. -/
def returned (pid : Pid) : Chronicle → Bool
  | [] => false
  | .act other ⟨.note (.pendingReturned ..), _⟩ :: history => other = pid || returned pid history
  | _ :: history => returned pid history

/-- An entry whose `record_pending` has returned is present until a `resolve_pending` of its pair runs. -/
def Kept (history : Chronicle) (world : World) : Prop :=
  ∀ pair pid, pid ∈ recorders calls pair history → returned pid history = true →
    ((world.board .pending).find? pair).isSome

/-- The pairs that a process saw at its last read. -/
def seenPairs (pid : Pid) (history : Chronicle) : List Pair :=
  match lastRead .pending pid history with
  | some file => file.keys
  | none => []

/-- At each write, the writer has seen every other pair that the file holds now. -/
def seesOtherPairs : StepCondition
  | history, world, .act pid event => event.1.writes .pending = true →
      ∀ pair ∈ (world.board .pending).keys, pair = (calls pid).pair ∨ pair ∈ seenPairs pid history
  | _, _, .crash _ => True

instance : (history : Chronicle) → (world : World) → (label : Label signature Pid) →
    Decidable (seesOtherPairs calls history world label)
  | history, world, .act pid event => inferInstanceAs (Decidable (event.1.writes .pending = true →
      ∀ pair ∈ (world.board .pending).keys, pair = (calls pid).pair ∨ pair ∈ seenPairs pid history))
  | _, _, .crash _ => .isTrue trivial

end

/-- A process remembers its call and the file that it read last. -/
structure Phase where
  call : PendingCall
  seen : Option (File Store.pending.Data)

/-- A process keeps every other pair that it saw, and writes its own pair unless it resolves it. -/
def pairGuard (phase : Phase) : Effect → Prop
  | .write .pending data => ∃ file, phase.seen = some file ∧
      (∀ pair, pair ≠ phase.call.pair → Dict.get? data pair = file.find? pair) ∧
      (phase.call.isResolve = false → (Dict.get? data phase.call.pair).isSome)
  | _ => True

/-- This protocol follows one call on the pending completions. -/
abbrev pairProtocol : Protocol signature :=
  ⟨Phase, pairGuard, fun phase op answer => ⟨phase.call, readBy .pending op answer phase.seen⟩⟩

/-- The written file differs from the file that the process read only at its own pair. -/
theorem pairGuard_write {pendingCall : PendingCall} {file : File (Dict Pair PendingEntry)}
    {data written : Dict Pair PendingEntry} (decoded : decode .pending file = .ok data)
    (others : ∀ pair, pair ≠ pendingCall.pair → written.get? pair = data.get? pair)
    (own : pendingCall.isResolve = false → (written.get? pendingCall.pair).isSome) :
    pairGuard ⟨pendingCall, readBy .pending (Effect.read .pending) file none⟩
      (.write .pending (Store.pending.sorted written)) := by
  refine ⟨file, rfl, fun pair different => ?_, fun kept => ?_⟩
  · rw [get?_sorted, others pair different, find?_of_decode decoded]
  · rw [get?_sorted]
    exact own kept

/-- Each call of the module obeys the protocol. -/
theorem run_pair (pendingCall : PendingCall) :
    Fallible.wp pairProtocol.machine pendingCall.run (fun _ _ _ => True) ⟨pendingCall, none⟩ := by
  cases pendingCall with
  | record deployment threadId invocationId assistant subject cascadeDepth concurrencyHeld deploymentHeld now =>
      simp only [PendingCall.run, recordPending, Fallible.wp_bind, wp_requireTexts]
      cases checkTexts .pendingCompletion [("deployment alias", deployment), ("thread ID", threadId),
        ("invocation ID", invocationId), ("assistant", assistant), ("subject", subject)] with
      | error exc => trivial
      | ok value =>
          simp only [Fallible.after_ok, Fallible.wp_bind, loadPending, wp_load]
          refine ⟨trivial, ?_⟩
          rintro file _ rfl
          cases decoded : decode .pending file with
          | error exc => trivial
          | ok data =>
              simp only [Fallible.after_ok, Fallible.wp_bind, wp_key]
              cases checkTexts .pendingCompletion _ with
              | error exc => trivial
              | ok value =>
                  simp only [Except.map, Fallible.after_ok, Fallible.wp_bind, wp_note, wp_writeAtomic]
                  refine ⟨trivial, ?_⟩
                  rintro _ rfl
                  refine ⟨pairGuard_write decoded (fun pair different => ?_) fun _ => ?_, ?_⟩
                  · exact data.get?_set_of_ne different _
                  · simp [PendingCall.pair]
                  · exact fun _ _ => ⟨trivial, fun _ _ => trivial⟩
  | update deployment threadId invocationId concurrencyHeld deploymentHeld now =>
      simp only [PendingCall.run, updatePending, Fallible.wp_bind, loadPending, wp_load]
      refine ⟨trivial, ?_⟩
      rintro file _ rfl
      cases decoded : decode .pending file with
      | error exc => trivial
      | ok data =>
          simp only [Fallible.after_ok, Fallible.wp_bind, wp_key]
          cases checkTexts .pendingCompletion _ with
          | error exc => trivial
          | ok value =>
              simp only [Except.map, Fallible.after_ok]
              split
              · trivial
              · simp only [Fallible.wp_bind, wp_note, Fallible.after_ok, wp_writeAtomic]
                refine ⟨trivial, ?_⟩
                rintro _ rfl
                refine ⟨pairGuard_write decoded (fun pair different => ?_) fun _ => ?_, fun _ _ => trivial⟩
                · exact Dict.get?_set_of_ne _ different _
                · simp [PendingCall.pair]
  | resolve deployment threadId =>
      simp only [PendingCall.run, resolvePending, Fallible.wp_bind, loadPending, wp_load]
      refine ⟨trivial, ?_⟩
      rintro file _ rfl
      cases decoded : decode .pending file with
      | error exc => trivial
      | ok data =>
          simp only [Fallible.after_ok, Fallible.wp_bind, wp_key]
          cases checkTexts .pendingCompletion _ with
          | error exc => trivial
          | ok value =>
              simp only [Except.map, Fallible.after_ok]
              split
              · trivial
              · simp only [Fallible.wp_bind, wp_note, Fallible.after_ok, wp_writeAtomic]
                refine ⟨trivial, ?_⟩
                rintro _ rfl
                refine ⟨pairGuard_write decoded (fun pair different => ?_) (fun kept => by cases kept), fun _ _ => trivial⟩
                exact Dict.get?_erase_of_ne _ different

section
variable {calls : Pid → PendingCall} {history : Chronicle} {world after : World} {pid : Pid}

/-- Each process starts with its call and has seen nothing. -/
def startPhase (calls : Pid → PendingCall) (pid : Pid) : Phase := ⟨calls pid, none⟩

theorem phase_call (history : Chronicle) (pid : Pid) :
    (pairProtocol.phase (startPhase calls) history pid).call = calls pid :=
  pairProtocol.phase_constant Phase.call (fun _ _ _ => rfl) _ history pid

theorem phase_seen (history : Chronicle) (pid : Pid) :
    (pairProtocol.phase (startPhase calls) history pid).seen = lastRead .pending pid history :=
  view_eq_lastRead pairProtocol .pending Phase.seen (fun _ _ _ => rfl) (fun _ => rfl) history pid

/-- A step that writes no pending file adds no recorder. -/
theorem recorders_frame {pair : Pair} {event : signature.Event} (quiet : event.1.writes .pending = false)
    (recorded : recorders calls pair (.act pid event :: history) ≠ []) : recorders calls pair history ≠ [] := by
  unfold recorders at recorded
  split at recorded
  · exact absurd rfl recorded
  · simpa [quiet] using recorded

/-- A write keeps each recorded pair that the writer saw or wrote itself. -/
theorem recorded_write {pair : Pair} {data : Dict Pair PendingEntry}
    (kept : recorders calls pair history ≠ [] → ((world.board .pending).find? pair).isSome)
    (permitted : pairGuard (pairProtocol.phase (startPhase calls) history pid) (.write .pending data))
    (sees : ∀ pair ∈ (world.board .pending).keys, pair = (calls pid).pair ∨ pair ∈ seenPairs pid history)
    (recorded : recorders calls pair (.act pid ⟨Effect.write .pending data, ()⟩ :: history) ≠ []) :
    (data.get? pair).isSome := by
  obtain ⟨file, seen, others, own⟩ := permitted
  rw [phase_call] at others own
  rw [phase_seen] at seen
  unfold recorders at recorded
  split at recorded
  · exact absurd rfl recorded
  · rename_i open_
    by_cases mine : pair = (calls pid).pair
    · subst mine
      exact own (by simpa using open_)
    · have different : ((calls pid).pair == pair) = false := by simpa using Ne.symm mine
      simp only [different, Bool.and_false, Bool.false_and, Bool.false_eq_true, if_false] at recorded
      have current := (File.mem_keys_iff _ _).mpr (kept recorded)
      rcases sees pair current with same | known
      · exact absurd same mine
      · rw [others pair mine, ← File.mem_keys_iff]
        simpa [seenPairs, seen] using known

/-- A recorded pair stays in the file while every writer sees it. -/
theorem recorded_present {board : Board} {config : Config signature World Pid (Except Exc Unit)}
    (reached : Reaches worldSharing (seesOtherPairs calls) (fun pid => (calls pid).run.toProgram)
      (World.fresh board) history config) (pair : Pair) (recorded : recorders calls pair history ≠ []) :
    ((config.shared.board .pending).find? pair).isSome := by
  refine pairProtocol.invariant (startPhase calls) (fun pid => run_pair (calls pid))
    (fun history world => recorders calls pair history ≠ [] → ((world.board .pending).find? pair).isSome)
    (fun none => absurd rfl none) ?_ ?_ reached recorded
  · intro history world pid op answer after kept _ permitted move sees recorded
    by_cases area : op.writes .pending = true
    · cases op with
      | write store data =>
          obtain rfl : store = .pending := by simpa [Effect.writes] using area
          obtain rfl := move
          rw [World.write_board, Board.put_self, File.find?_content]
          exact recorded_write kept permitted (sees area) recorded
      | _ => cases area
    · rw [worldStep_frame move (by simpa using area)]
      exact kept (recorders_frame (by simpa using area) recorded)
  · exact fun history world pid kept _ recorded => kept recorded

end

/-- Every returned record stays present while each writer has seen every pair of the file it replaces. -/
theorem entries_kept (calls : Pid → PendingCall) (board : Board) {history : Chronicle}
    {config : Config signature World Pid (Except Exc Unit)}
    (reached : Reaches worldSharing (seesOtherPairs calls) (fun pid => (calls pid).run.toProgram)
      (World.fresh board) history config) : Kept calls history config.shared := by
  intro pair pid recorded _
  exact recorded_present reached pair (List.ne_nil_of_mem recorded)

/-- Two submissions record the Runs of two Threads of one Deployment. -/
def twoRecords (pid : Pid) : PendingCall :=
  .record "local" (if pid = 0 then "thread-1" else "thread-2") "run" "graph" "42" 0 true true 0

/-- The second process reads after the first one has written. -/
def sequence : Option (Reached signature World Pid (Except Exc Unit)) :=
  calm.shared.play (seesOtherPairs twoRecords) (fun pid => (twoRecords pid).run) (fun _ => .missing)
    (turnsOf 0 4 ++ turnsOf 1 4)

theorem entries_kept_sequence :
    ∃ reached, sequence = some reached ∧ recorders twoRecords ("local", "thread-1") reached.history = [0] ∧
      Kept twoRecords reached.history reached.config.shared := by
  obtain ⟨reached, played⟩ := Option.isSome_iff_exists.mp (show sequence.isSome = true by decide +kernel)
  have recorded : (sequence.map fun reached => recorders twoRecords ("local", "thread-1") reached.history) =
      some [0] := by decide +kernel
  rw [played] at recorded
  exact ⟨reached, played, Option.some.inj recorded,
    entries_kept twoRecords _ (SharedScript.play_reaches played)⟩

/-- Both processes read before either of them writes. -/
def overlap : Option (Reached signature World Pid (Except Exc Unit)) :=
  calm.shared.play anyStep (fun pid => (twoRecords pid).run) (fun _ => .missing)
    (turnsOf 0 1 ++ turnsOf 1 1 ++ turnsOf 0 3 ++ turnsOf 1 3)

/-- Both calls return, and the entry of the first one is gone. -/
theorem entry_lost :
    ∃ history config, Reaches worldSharing anyStep (fun pid => (twoRecords pid).run.toProgram)
      (World.fresh fun _ => .missing) history config ∧ ¬ Kept twoRecords history config.shared := by
  obtain ⟨reached, played⟩ := Option.isSome_iff_exists.mp (show overlap.isSome = true by decide +kernel)
  have facts : (overlap.map fun reached => (recorders twoRecords ("local", "thread-1") reached.history,
      returned 0 reached.history, (reached.config.shared.board .pending).find? ("local", "thread-1"))) =
      some ([0], true, none) := by decide +kernel
  rw [played] at facts
  simp only [Option.map_some, Option.some.injEq, Prod.mk.injEq] at facts
  refine ⟨reached.history, reached.config, SharedScript.play_reaches played, fun kept => ?_⟩
  have present := kept ("local", "thread-1") 0 (by simp [facts.1]) facts.2.1
  simp [facts.2.2] at present

end Cordboard.PendingCompletions
