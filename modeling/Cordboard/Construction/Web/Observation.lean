import Cordboard.Construction.Convergence
import Cordboard.Construction.Web.Routes

namespace Cordboard.Web.Observation
open Data AegraClient LiveReconciliation

/-- A worker observes one invocation of a Deployment. -/
structure Target where
  alias_ : String
  threadId : String
  invocation : String
deriving DecidableEq

/-- A live Run keeps the invocation that it shows. -/
structure Shown where
  live : LiveRun
  invocation : String

/-- This is where the thread of a worker stands. -/
inductive Phase where
  | starting
  | observing (logical : String)
  | failing (logical : String)
  | checking (logical : String) (object : Nat)
  | ended
deriving DecidableEq

/-- The fields that the threads share. The live Runs are objects, and `live` refers to them. -/
structure State where
  objects : List Shown
  live : Dict String Nat
  errors : Dict Target String
  workers : Dict Target Phase
  stop : Bool

def State.start : State := ⟨[], Dict.empty, Dict.empty, Dict.empty, false⟩

/-- The latest invocation of each recorded Thread is observed, too. -/
def targetsOf (watch : List Target) (continuity : Dict String (Dict String LogicalRun)) : List Target :=
  watch ++ continuity.items.flatMap fun deployment => deployment.2.items.filterMap fun thread =>
    thread.2.apiRunIds.getLast?.map fun invocation => ⟨deployment.1, thread.1, invocation⟩

/-- One turn of the loop of `discover`. -/
def enlist (aliases : List String) (workers : Dict Target Phase) (target : Target) : Dict Target Phase :=
  if target.alias_ ∉ aliases ∨ target ∈ workers.keys then workers else workers.set target .starting

/-- The worker catches `RuntimeError`, `ValueError`, `KeyError`, and `TypeError`. -/
def caught (exc : Exc) : Bool :=
  exc.isRuntimeError || exc.isValueError || exc.kind == .key || exc.kind == .type

/-- What a worker asks before it takes the lock. -/
def learn (target : Target) (run assistant : Option Json) : Except Exc (Description × Json) := do
  let identity ← describeRun run target.threadId target.invocation
  let graph ← describeAssistant assistant identity.assistantId
  .ok (identity, graph)

/-- The stored object shows the invocation. -/
def State.current (state : State) (target : Target) (logical : String) : Option (Nat × Shown) := do
  let object ← state.live.get? logical
  let shown ← state.objects[object]?
  if shown.invocation = target.invocation then some (object, shown) else none

/-- One successful request. -/
structure Sight where
  target : Target
  logical : String
  identity : Description
  graph : Json
  now : Time

/-- The history tells what the workers wrote. A status that is no key of a set was written, too. -/
inductive Event where
  | started (target : Target)
  | sight (sight : Sight)
  | settled (target : Target)
  | failed (target : Target)

/-- The live Run of a first sight. -/
def Sight.create (sight : Sight) : Except Exc Shown := do
  let live ← LiveRun.create sight.logical sight.target.threadId sight.graph sight.identity.assistantId
    sight.identity.subject
  .ok ⟨live, sight.target.invocation⟩

/-- The status is written before the set is asked. A terminal status sets the time of the completion once. -/
def Sight.write (sight : Sight) (shown : Shown) : Shown :=
  let live := { shown.live with status := sight.identity.status }
  match live.isTerminal with
  | .ok true => ⟨{ live with completedAt := live.completedAt.or (some sight.now) }, shown.invocation⟩
  | _ => ⟨live, shown.invocation⟩

/-- The body of the first lock of `_observe`, up to the removal of the error. -/
def State.record (state : State) (sight : Sight) : Except Exc (State × Nat × Shown) :=
  match state.current sight.target sight.logical with
  | some (object, shown) =>
      let shown := sight.write shown
      .ok ({ state with objects := state.objects.set object shown }, object, shown)
  | none => do
      let shown := sight.write (← sight.create)
      .ok ({ state with objects := state.objects ++ [shown],
                        live := state.live.set sight.logical state.objects.length }, state.objects.length, shown)

def State.move (state : State) (target : Target) (phase : Phase) : State :=
  { state with workers := state.workers.set target phase }

/-- The worker asks again, unless the server has closed. -/
def State.again (state : State) (target : Target) (logical : String) : State :=
  state.move target (if state.stop then .ended else .observing logical)

/-- An exception that the worker does not catch ends its thread. -/
def State.raised (state : State) (target : Target) (logical : String) (exc : Exc) : State :=
  state.move target (if caught exc then .failing logical else .ended)

/-- One request of a worker and the lock after it. -/
def State.observe (state : State) (target : Target) (logical : String) (run assistant : Option Json) (now : Time) :
    State × List Event :=
  match learn target run assistant with
  | .error exc => (state.raised target logical exc, [])
  | .ok (identity, graph) =>
      let sight : Sight := ⟨target, logical, identity, graph, now⟩
      match state.record sight with
      | .error exc => (state.raised target logical exc, [])
      | .ok (written, object, shown) =>
          match shown.live.isTerminal with
          | .error exc => (written.raised target logical exc, [.sight sight])
          | .ok _ => ({ written with errors := written.errors.erase target }.move target (.checking logical object),
              [.sight sight, .settled target])

def disconnected : String := "Deployment disconnected; retrying observation"

/-- A thread takes one of these turns, or the server closes. -/
inductive Action where
  | discover (watch : List Target) (continuity : Dict String (Dict String LogicalRun)) (aliases : List String)
  | resolve (target : Target) (continuity : Except Exc LogicalRun)
  | observe (target : Target) (run assistant : Option Json) (now : Time)
  | fail (target : Target)
  | check (target : Target)
  | close
  | leave (target : Target)

/-- A turn that the thread cannot take now changes nothing. -/
def State.step (state : State) : Action → State × List Event
  | .discover watch continuity aliases =>
      let workers := (targetsOf watch continuity).foldl (enlist aliases) state.workers
      ({ state with workers }, (workers.keys.filter fun target => target ∉ state.workers.keys).map .started)
  | .resolve target continuity =>
      if state.workers.get? target = some .starting then
        match Cli.resolveLogicalRunId continuity target.invocation with
        | .ok logical => (state.again target logical, [])
        | .error _ => (state.move target .ended, [])
      else (state, [])
  | .observe target run assistant now =>
      match state.workers.get? target with
      | some (.observing logical) => state.observe target logical run assistant now
      | _ => (state, [])
  | .fail target =>
      match state.workers.get? target with
      | some (.failing logical) =>
          ({ state with errors := state.errors.set target disconnected }.again target logical, [.failed target])
      | _ => (state, [])
  | .check target =>
      match state.workers.get? target with
      | some (.checking logical object) =>
          match state.objects[object]? with
          | none => (state, [])
          | some shown =>
              match shown.live.isTerminal with
              | .ok true => (state.move target .ended, [])
              | .ok false => (state.again target logical, [])
              | .error exc => (state.raised target logical exc, [])
      | _ => (state, [])
  | .close => ({ state with stop := true }, [])
  | .leave target =>
      match state.workers.get? target with
      | some (.observing _) => if state.stop then (state.move target .ended, []) else (state, [])
      | _ => (state, [])

/-- The threads take their turns in this order. -/
def State.run (state : State) : List Action → State × List Event
  | [] => (state, [])
  | action :: rest =>
      let (next, events) := state.step action
      let (final, later) := next.run rest
      (final, events ++ later)

/-- This is the dictionary that the views are computed from. -/
def State.liveRuns (state : State) : Dict String LiveRun :=
  state.live.filterMap fun object => (state.objects[object]?).map Shown.live

end Cordboard.Web.Observation
