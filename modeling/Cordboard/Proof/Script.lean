import Cordboard.Construction.Semantics
import Cordboard.Effects.Schedule

namespace Cordboard
open Data Effects

/-- A script answers the calls of a single process. It may look at the past events. -/
abbrev Script := List signature.Event → (target : Call) → target.Answer

/-- In this script each service answers. A Run is interrupted, and no entity authorizes. -/
def calm : Script := fun _ target =>
  match target with
  | .isAlive .. => true
  | .launch .. => .ok 1
  | .healthCheck .. => true
  | .stop .. => ()
  | .execute .. => .ok ⟨"run-1", "thread-1", .interrupted⟩
  | .describeRun .. => .ok ⟨some "graph", "interrupted", some "42"⟩
  | .lastPoll .. => .ok "interrupted"
  | .threadState .. => .ok (.obj [])
  | .submitResume .. => .ok "run-2"
  | .authorize .. => .ok ⟨false, "rejected"⟩
  | .postAuthorize .. => .error ⟨.request, "no route"⟩
  | .halt .. => .ok ()

/-- The board answers each read, and the script answers each call. -/
def Script.resolver (script : Script) : Resolver boardMachine where
  respond past board
    | .read store => (board store, board)
    | .write store data => ((), board.put store data)
    | .lock _ => ((), board)
    | .unlock _ => ((), board)
    | .call target => (script past target, board)
    | .note _ => ((), board)
  sound past board op := by cases op <;> first | rfl | exact ⟨rfl, rfl⟩

/-- This is the run of a program on a board under a script. -/
def Script.exec {A : Type} (script : Script) (program : Py A) (board : Board) :
    Result signature Board (Except Exc A) :=
  script.resolver.exec program.toProgram [] board

theorem Script.exec_runs {A : Type} (script : Script) (program : Py A) (board : Board) :
    Runs boardMachine program.toProgram board (script.exec program board).trace (script.exec program board).value
      (script.exec program board).final :=
  script.resolver.exec_runs _ _ _

/-- A shared script answers the calls of each process. -/
abbrev SharedScript := Pid → Script

/-- Each process follows the same script. -/
def Script.shared (script : Script) : SharedScript := fun _ => script

/-- The events of one process, the newest one first. -/
def eventsOf (pid : Pid) : Chronicle → List signature.Event
  | [] => []
  | .act other event :: history => if other = pid then event :: eventsOf pid history else eventsOf pid history
  | .crash _ :: history => eventsOf pid history

theorem mem_eventsOf_iff (pid : Pid) (event : signature.Event) (history : Chronicle) :
    event ∈ eventsOf pid history ↔ Label.act pid event ∈ history := by
  induction history with
  | nil => simp [eventsOf]
  | cons label history ih =>
      cases label with
      | crash other => simp [eventsOf, ih]
      | act other first =>
          by_cases same : other = pid
          · subst other
            simp [eventsOf, ih]
          · simp [eventsOf, ih, same, Ne.symm same]

/-- A process waits for a lock that another process owns. -/
def SharedScript.scheduler (script : SharedScript) : Scheduler worldSharing where
  respond history pid world
    | .read store => some (world.board store, world)
    | .write store data => some ((), world.write store data)
    | .lock file => if world.owner file = none then some ((), world.take pid file) else none
    | .unlock file => some ((), world.free pid file)
    | .call target => some (script pid (eventsOf pid history) target, world)
    | .note _ => some ((), world)
  sound history pid world op answer after answered := by
    cases op with
    | lock file =>
        dsimp only at answered
        split at answered
        · rename_i free
          obtain ⟨rfl, rfl⟩ := Prod.mk.inj (Option.some.inj answered)
          exact ⟨free, rfl⟩
        · cases answered
    | read store =>
        obtain ⟨rfl, rfl⟩ := Prod.mk.inj (Option.some.inj answered)
        exact ⟨rfl, rfl⟩
    | _ =>
        obtain ⟨rfl, rfl⟩ := Prod.mk.inj (Option.some.inj answered)
        rfl

/-- These turns let one process act several times. -/
def turnsOf (pid : Pid) (count : Nat) : List (Turn Pid) := List.replicate count (.act pid)

/-- The processes start with these tasks on a board. -/
def SharedScript.play {A : Type} (script : SharedScript) (condition : StepCondition)
    [∀ history world label, Decidable (condition history world label)] (tasks : Pid → Py A) (board : Board)
    (turns : List (Turn Pid)) : Option (Reached signature World Pid (Except Exc A)) :=
  script.scheduler.run condition turns
    ⟨[], ⟨World.fresh board, fun pid => some (tasks pid).toProgram⟩⟩

theorem SharedScript.play_reaches {A : Type} {script : SharedScript} {condition : StepCondition}
    [∀ history world label, Decidable (condition history world label)] {tasks : Pid → Py A} {board : Board}
    {turns : List (Turn Pid)} {reached : Reached signature World Pid (Except Exc A)}
    (played : script.play condition tasks board turns = some reached) :
    Reaches worldSharing condition (fun pid => (tasks pid).toProgram) (World.fresh board) reached.history
      reached.config :=
  script.scheduler.run_reaches condition .start played

end Cordboard
