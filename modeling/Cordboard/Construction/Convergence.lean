import Cordboard.Construction.Viewer.Catalog
import Mathlib.Algebra.Order.Ring.Unbundled.Rat

namespace Cordboard.LiveReconciliation
open Data Viewer

/-- A completed Run waits this long for its record before it is shown as pending, and then as failed. -/
structure Thresholds where
  pendingAfter : Time
  failedAfter : Time

/-- The seconds since a completion are never negative. -/
def secondsSince (completedAt now : Time) : Time := max 0 (now - completedAt)

def sourceOf (thresholds : Thresholds) (seconds : Time) : LiveSource :=
  if thresholds.failedAfter ≤ seconds then .ingestionFailed
  else if thresholds.pendingAfter ≤ seconds then .ingestionPending
  else .live

/-- A Graph has a text for its identifier. -/
def graphText : Json → Option String
  | .str text => some text
  | _ => none

/-- The display facts of one live Run. -/
def LiveRun.view (live : LiveRun) (runId : String) (now : Time) (thresholds : Thresholds) : LiveView where
  runId := runId
  threadId := live.threadId
  graphId := graphText live.graphId
  assistantId := live.assistantId
  subject := live.subject
  aegraStatus := live.status
  source :=
    match live.completedAt with
    | none => .live
    | some completedAt => sourceOf thresholds (secondsSince completedAt now)
  secondsSinceCompletion := live.completedAt.map fun completedAt => secondsSince completedAt now

/-- A recorded Run is dropped, because the durable record wins. -/
def reconcile (liveRuns : Dict String LiveRun) (recorded : List String) (now : Time) (thresholds : Thresholds) :
    LiveViews where
  views := (liveRuns.filter fun runId _ => !recorded.contains runId).mapItems fun runId live =>
    live.view runId now thresholds
  keyed := by
    intro item member
    obtain ⟨_, _, rfl⟩ := List.mem_map.mp member
    rfl

/-- The completed Runs that are neither recorded nor failed. -/
def unresolved (liveRuns : Dict String LiveRun) (views : LiveViews) : List String :=
  (liveRuns.items.filter fun item => item.2.completedAt.isSome &&
    match views.views.get? item.1 with
    | some view => view.source != .ingestionFailed
    | none => false).map Prod.fst

/-- The loop yields the views of each poll. It sleeps only when a completed Run is unresolved. -/
def awaitConvergence (liveRuns : Dict String LiveRun) (recorded : Nat → List String) (now : Nat → Time)
    (thresholds : Thresholds) : Nat → Nat → Option (List LiveViews)
  | 0, _ => none
  | fuel + 1, poll =>
      let views := reconcile liveRuns (recorded poll) (now poll) thresholds
      if (unresolved liveRuns views).isEmpty then some [views]
      else (awaitConvergence liveRuns recorded now thresholds fuel (poll + 1)).map fun later => views :: later

end Cordboard.LiveReconciliation
