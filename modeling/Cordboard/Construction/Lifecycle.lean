import Cordboard.Construction.Storage

namespace Cordboard.DeploymentLifecycle
open Data Effects

/-- An idle Deployment stops after ten minutes unless its connection says otherwise. -/
def defaultIdleAfter : Time := 600

/-- `ensure_started` reports one of these three states. -/
inductive Started where
  | external
  | running (pid : Option Nat)
  | startFailed (error : String)
deriving DecidableEq

def loadLifecycle : Py (Dict String LifecycleRecord) := load .lifecycle

/-- A whole number of seconds prints with one decimal, as a Python float does. -/
def secondsText (seconds : Time) : String :=
  toString seconds.num ++ (if seconds.den = 1 then ".0" else "/" ++ toString seconds.den)

/-- A stored running record counts only while its process answers. -/
def verifiedRecord (endpoint : String) (record : Option LifecycleRecord) : Py (Option LifecycleRecord) := do
  match record with
  | none => pure none
  | some stored =>
      if stored.status = .running then
        let alive ← call (.isAlive endpoint)
        pure (if alive then some stored else none)
      else
        pure none

/-- The failed start stays in the store with its error. -/
def recordStartFailed (deployment : String) (data : Dict String LifecycleRecord) (pid : Option Nat)
    (now : Time) (error : String) : Py Started := do
  writeAtomic .lifecycle (data.set deployment ⟨.startFailed, pid, 0, none, now, some error⟩)
  pure (.startFailed error)

/-- A fresh launch replaces the record of this alias. -/
def launchDeployment (deployment : String) (connection : Connection) (data : Dict String LifecycleRecord)
    (now healthTimeout : Time) (holder : Holder) : Py Started := do
  let launched ← call (.launch deployment connection.launch)
  match launched with
  | .error exc =>
      if exc.kind = .os then
        recordStartFailed deployment data none now exc.message
      else
        Fallible.raise exc
  | .ok pid =>
      let healthy ← call (.healthCheck connection.endpoint healthTimeout)
      if healthy then
        writeAtomic .lifecycle (data.set deployment ⟨.running, some pid, 1, some now, now, none⟩)
        note (.activityTaken deployment holder)
        pure (.running (some pid))
      else
        recordStartFailed deployment data (some pid) now
          ("Deployment '" ++ deployment ++ "' did not become healthy within " ++ secondsText healthTimeout ++
            "s of launch")

/-- A managed Deployment is running, with one more active claim, before this call reports success. -/
def ensureStarted (deployment : String) (connection : Connection) (now healthTimeout : Time)
    (holder : Holder) : Py Started := do
  if !connection.isManaged then
    pure .external
  else
    let data ← loadLifecycle
    let verified ← verifiedRecord connection.endpoint (data.get? deployment)
    match verified with
    | some record =>
        writeAtomic .lifecycle
          (data.set deployment { record with activeRuns := record.activeRuns + 1, lastActive := now })
        note (.activityTaken deployment holder)
        pure (.running record.pid)
    | none => launchDeployment deployment connection data now healthTimeout holder

/-- One active claim is dropped. The call has no effect on an external or stopped Deployment. -/
def releaseActive (deployment : String) (connection : Connection) (now : Time) (holder : Holder) : Py Unit := do
  if !connection.isManaged then
    note (.activityReleased deployment holder false)
  else
    let data ← loadLifecycle
    match data.get? deployment with
    | none => note (.activityReleased deployment holder false)
    | some record =>
        if record.status = .running then
          note (.activityReleased deployment holder (0 < record.activeRuns))
          writeAtomic .lifecycle
            (data.set deployment { record with activeRuns := record.activeRuns - 1, lastActive := now })
        else
          note (.activityReleased deployment holder false)

/-- A managed running Deployment is idle when no claim is active and its window has passed. -/
def isIdle (connections : Dict String Connection) (now : Time) (deployment : String)
    (record : LifecycleRecord) : Bool :=
  match connections.get? deployment with
  | none => false
  | some connection =>
      connection.isManaged && record.status == .running && record.activeRuns == 0 &&
        decide (connection.idleAfter.getD defaultIdleAfter ≤ now - record.lastActive)

/-- The sweep visits the aliases in file order and stops each idle one. -/
def stopEach (connections : Dict String Connection) (now : Time) :
    List (String × LifecycleRecord) → Dict String LifecycleRecord → Py (Dict String LifecycleRecord × List String)
  | [], data => pure (data, [])
  | (deployment, record) :: rest, data =>
      if isIdle connections now deployment record then do
        call (.stop deployment record.pid)
        let (final, stopped) ← stopEach connections now rest
          (data.set deployment { record with status := .stopped, pid := none })
        pure (final, deployment :: stopped)
      else
        stopEach connections now rest data

/-- Every managed Deployment that is idle beyond its window is stopped. -/
def stopIdle (connections : Dict String Connection) (now : Time) : Py (List String) := do
  let data ← loadLifecycle
  let (final, stopped) ← stopEach connections now data.items data
  whenever (!stopped.isEmpty) (writeAtomic .lifecycle final)
  pure stopped

end Cordboard.DeploymentLifecycle
