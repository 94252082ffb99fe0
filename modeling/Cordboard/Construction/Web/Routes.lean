import Cordboard.Construction.Viewer.Catalog
import Cordboard.Data.Percent

namespace Cordboard.Web
open Data Data.Percent Viewer

def graphUrl (graph : GraphView) : String :=
  let gid := quote graph.graphId
  match graph.deploymentAlias with
  | some alias_ => "/connections/" ++ quote alias_ ++ "/graphs/" ++ gid
  | none => "/graphs/" ++ gid ++ (if graph.topologyStatus = .ambiguous then "/ambiguous" else "")

/-- A page shows a recorded Run or a live one. -/
inductive AnyRun where
  | recorded (run : RunRecord)
  | live (view : LiveView)

def AnyRun.runId : AnyRun → String
  | .recorded run => run.runId
  | .live view => view.runId

/-- The recorded Runs of an entry come before its live ones. -/
def allRuns (graph : GraphView) : List AnyRun := graph.runs.map .recorded ++ graph.liveRuns.map .live

def runUrl (graph : GraphView) (run : AnyRun) : String := graphUrl graph ++ "/runs/" ++ quote run.runId

/-- A path selects the start page, a Graph, a Run, or the events of a Run. -/
structure Selected where
  graph : Option GraphView
  run : Option AnyRun
  events : Bool

/-- The parts after the first slash are split before they are decoded. -/
def pathParts (replaced : List UInt8 → String) (path : String) : List String :=
  ((path.toList.splitOn '/').drop 1).map fun part => unquote replaced (String.ofList part)

/-- The loop returns the first entry that the parts match. -/
def selectGraph (replaced : List UInt8 → String) (parts : List String) (events : Bool) :
    List GraphView → Option Selected
  | [] => none
  | graph :: rest =>
      let start := pathParts replaced (graphUrl graph)
      if parts = start && !events then some ⟨some graph, none, false⟩
      else if parts.take start.length = start && parts.length = start.length + 2 &&
          parts.getD (parts.length - 2) "" = "runs" then
        match (allRuns graph).find? fun run => run.runId = parts.getLastD "" with
        | some run => some ⟨some graph, some run, events⟩
        | none => selectGraph replaced parts events rest
      else selectGraph replaced parts events rest

/-- Nothing is found when the lookup fails. -/
def select (replaced : List UInt8 → String) (catalog : List GraphView) (path : String) : Option Selected :=
  let parts := pathParts replaced path
  if path = "/" then some ⟨none, none, false⟩
  else if parts.getLast? = some "events" then selectGraph replaced parts.dropLast true catalog
  else selectGraph replaced parts false catalog

end Cordboard.Web
