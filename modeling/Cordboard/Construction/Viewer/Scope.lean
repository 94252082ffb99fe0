import Cordboard.Construction.Convergence

namespace Cordboard.Viewer
open Data Archive LiveReconciliation

/-- A registered connection has an endpoint and its explicit associations. -/
structure Registered where
  endpoint : String
  graphMap : Dict String String

/-- A Deployment that is not reachable shows no Graph. -/
structure ProbeStatus where
  reachable : Bool
  graphs : List String
  silent : reachable = false → graphs = []

/-- A rendering observes each connection, each endpoint, and the clock. -/
structure Observed where
  probe : String → ProbeStatus
  checkFreshness : String → Freshness
  now : Time

/-- A view stops at an alias without a connection or at an exception of the tree. -/
inductive ViewFailure where
  | unknownAlias (alias_ : String)
  | archive (failure : Failure)
deriving DecidableEq

/-- The defaults of `reconcile`. -/
def defaultThresholds : Thresholds := ⟨5, 300⟩

/-- The topology of each endpoint is checked once for each connection. -/
def topologyOf (connections : Dict String Registered) (observed : Observed) : Dict String Freshness :=
  connections.items.foldl (fun topology item => topology.set item.2.endpoint (observed.checkFreshness item.2.endpoint))
    Dict.empty

/-- The catalog of probed connections, with the live Runs that are not recorded. -/
def renderCatalog (probed : Dict String Probed) (topology : Dict String Freshness) (spans : SpanMap)
    (liveById : Dict String LiveRun) (now : Time) : Except ViewFailure (List GraphView) :=
  let catalog := do
    let runs ← buildExecutionTree spans
    buildCatalog probed topology spans (reconcile liveById (runs.map RunRecord.runId) now defaultThresholds)
  match catalog with
  | .ok graphs => .ok graphs
  | .error failure => .error (.archive failure)

def probeConnections (connections : Dict String Registered) (observed : Observed) : Dict String Probed :=
  connections.mapItems fun alias_ info =>
    ⟨info.endpoint, (observed.probe alias_).reachable, (observed.probe alias_).graphs, info.graphMap⟩

/-- This is `cmd_view` up to `render`. It keeps the connection of the alias before it probes. -/
def cmdView (connections : Dict String Registered) (alias_ : Option String) (observed : Observed) (spans : SpanMap)
    (liveById : Dict String LiveRun) : Except ViewFailure (List GraphView) := do
  let selected ← match alias_ with
    | none => .ok connections
    | some alias_ =>
        match connections.get? alias_ with
        | none => .error (.unknownAlias alias_)
        | some info => .ok (Dict.empty.set alias_ info)
  renderCatalog (probeConnections selected observed) (topologyOf selected observed) spans liveById observed.now

/-- The entry belongs to the alias, or it is ambiguous and names the alias. -/
def GraphView.within (alias_ : String) (graph : GraphView) : Bool :=
  graph.deploymentAlias = some alias_ || graph.ambiguousAliases.contains alias_

/-- The Graphs of a Deployment that is down are those of the last probe. -/
def retainedGraphs (previous : Dict String Probed) (alias_ : String) (status : ProbeStatus) : List String :=
  if status.reachable then status.graphs else ((previous.get? alias_).map Probed.graphs).getD []

/-- This is `Observation.snapshot`. It joins all connections and applies the scope to the catalog. -/
def snapshot (connections : Dict String Registered) (alias_ : Option String) (previous : Dict String Probed)
    (observed : Observed) (spans : SpanMap) (liveById : Dict String LiveRun) :
    Except ViewFailure (List GraphView) := do
  match alias_ with
  | none => pure ()
  | some alias_ =>
      match connections.get? alias_ with
      | none => .error (.unknownAlias alias_)
      | some _ => pure ()
  let probed := connections.mapItems fun alias_ info =>
    (⟨info.endpoint, (observed.probe alias_).reachable, retainedGraphs previous alias_ (observed.probe alias_),
      info.graphMap⟩ : Probed)
  let catalog ← renderCatalog probed (topologyOf connections observed) spans liveById observed.now
  match alias_ with
  | none => .ok catalog
  | some alias_ => .ok (catalog.filter (GraphView.within alias_))

end Cordboard.Viewer
