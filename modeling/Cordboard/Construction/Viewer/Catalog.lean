import Cordboard.Construction.Viewer.Tree
import Cordboard.Construction.LiveRun
import Cordboard.Data.Group

namespace Cordboard.Viewer
open Data Archive

/-- The topology states that the viewer shows. -/
inductive TopologyStatus where
  | absent
  | unreachable
  | invalid
  | stale
  | current
  | noConnection
  | notChecked
  | ambiguous
deriving DecidableEq

structure DocumentGraph where
  id : String
  nodeIds : List String
deriving DecidableEq

/-- A topology document carries its graphs and the warnings that it gives rise to. -/
structure Document where
  graphs : List DocumentGraph
  warnings : List String

/-- The check of one endpoint reads a document, or says why there is none. -/
inductive Freshness where
  | absent
  | unreachable
  | invalid
  | changed
  | current (document : Document)

structure Correlation where
  status : TopologyStatus
  nodeIds : List String
  warnings : List String
  correlated : Bool

def sortTexts (texts : List String) : List String := texts.mergeSort fun first second => first ≤ second

/-- Exactly one entry of the map must name a graph of the document. -/
def resolveMultiGraph (graphs : List DocumentGraph) (graphId : String) (graphMap : Dict String String) :
    Option DocumentGraph :=
  if graphId = "" then none
  else
    match graphMap.items.filter fun item => item.2 = graphId && graphs.any fun graph => graph.id = item.1 with
    | [item] => graphs.reverse.find? fun graph => graph.id = item.1
    | _ => none

def correlateTopology (freshness : Option Freshness) (graphId : String) (graphMap : Dict String String) : Correlation :=
  match freshness with
  | none => ⟨.notChecked, [], [], false⟩
  | some .absent => ⟨.absent, [], [], false⟩
  | some .unreachable => ⟨.unreachable, [], [], false⟩
  | some .invalid => ⟨.invalid, [], [], false⟩
  | some .changed => ⟨.stale, [], ["published topology changed since the last explicit sync; " ++
      "not used to correlate recorded execution until refreshed"], false⟩
  | some (.current document) =>
      let resolved := match document.graphs with
        | [graph] => some graph
        | graphs => resolveMultiGraph graphs graphId graphMap
      match resolved with
      | some graph => ⟨.current, sortTexts graph.nodeIds, document.warnings, true⟩
      | none => ⟨.current, [], document.warnings ++ ["document publishes more than one graph; no explicit " ++
          "Deployment/Graph association names one for this graph, so Node structure is withheld"], false⟩

/-- The probe of one connection and its explicit associations. -/
structure Probed where
  endpoint : String
  reachable : Bool
  graphs : List String
  graphMap : Dict String String

/-- A connection that advertises a Graph. -/
structure Connected where
  alias_ : String
  endpoint : String
  reachable : Bool
  graphMap : Dict String String

inductive LiveSource where
  | live
  | ingestionPending
  | ingestionFailed
deriving DecidableEq

/-- A live view is what `reconcile` shows of one live Run. -/
structure LiveView where
  runId : String
  threadId : String
  graphId : Option String
  assistantId : Json
  subject : Json
  aegraStatus : Json
  source : LiveSource
  secondsSinceCompletion : Option Time

/-- Each live view stands under its own Run ID. -/
structure LiveViews where
  views : Dict String LiveView
  keyed : ∀ item ∈ views.items, item.2.runId = item.1

structure GraphView where
  graphId : String
  deploymentAlias : Option String
  reachable : Option Bool
  topologyStatus : TopologyStatus
  topologyNodes : List String
  topologyWarnings : List String
  runs : List RunRecord
  ambiguousAliases : List String
  liveRuns : List LiveView

def graphView (graphId : String) (connection : Option Connected) (correlation : Correlation) (runs : List RunRecord)
    (liveRuns : List LiveView) (ambiguousAliases : List String) : GraphView where
  graphId := graphId
  deploymentAlias := connection.map Connected.alias_
  reachable := connection.map Connected.reachable
  topologyStatus := correlation.status
  topologyNodes := correlation.nodeIds
  topologyWarnings := correlation.warnings
  runs := runs
  ambiguousAliases := ambiguousAliases
  liveRuns := liveRuns

/-- Three tables group the connections, the recorded Runs, and the live views by Graph. -/
structure Groups where
  connections : Dict String (List Connected)
  runs : Dict String (List RunRecord)
  live : Dict String (List LiveView)

def connectionsByGraph (connections : Dict String Probed) : Dict String (List Connected) :=
  Dict.group (connections.items.flatMap fun item => item.2.graphs.map fun graphId =>
    (graphId, ⟨item.1, item.2.endpoint, item.2.reachable, item.2.graphMap⟩))

def runsByGraph (runs : List RunRecord) : Dict String (List RunRecord) :=
  Dict.group (runs.map fun run => (run.graphId, run))

/-- A recorded Run is never live, and a view without a Graph is dropped. -/
def liveByGraph (runs : List RunRecord) (live : LiveViews) : Dict String (List LiveView) :=
  (Dict.group (live.views.items.filterMap fun item =>
    if (runs.map RunRecord.runId).contains item.1 then none
    else match item.2.graphId with
      | some graphId => if graphId = "" then none else some (graphId, item.2)
      | none => none)).mapValues fun views => views.mergeSort fun first second => first.runId ≤ second.runId

/-- An entry sorts by its Graph, its kind, and its alias. -/
structure EntryKey where
  graphId : String
  rank : Nat
  alias_ : String

def EntryKey.before (first second : EntryKey) : Bool :=
  first.graphId < second.graphId || (first.graphId = second.graphId &&
    (first.rank < second.rank || (first.rank = second.rank && first.alias_ ≤ second.alias_)))

/-- The text that explains an ambiguous entry. -/
def ambiguityWarning (graphId : String) (aliases : List String) : String :=
  "graph_id '" ++ graphId ++ "' is advertised by more than one connection (" ++ ", ".intercalate aliases ++
    "); recorded/live execution cannot be attributed to one of them and is shown here instead of being guessed"

def unconnectedEntry (groups : Groups) (graphId : String) : EntryKey × GraphView :=
  (⟨graphId, 0, ""⟩, graphView graphId none ⟨.noConnection, [], [], false⟩ (groups.runs.members graphId)
    (groups.live.members graphId) [])

/-- More than one connection advertises the Graph. -/
def isAmbiguous (groups : Groups) (graphId : String) : Bool := 1 < (groups.connections.members graphId).length

def connectionEntry (topology : Dict String Freshness) (groups : Groups) (graphId : String) (connection : Connected) :
    EntryKey × GraphView :=
  (⟨graphId, 1, connection.alias_⟩,
    graphView graphId (some connection)
      (correlateTopology (topology.get? connection.endpoint) graphId connection.graphMap)
      (if isAmbiguous groups graphId then [] else groups.runs.members graphId)
      (if isAmbiguous groups graphId then [] else groups.live.members graphId) [])

def ambiguousEntry (groups : Groups) (graphId : String) : EntryKey × GraphView :=
  let aliases := sortTexts ((groups.connections.members graphId).map Connected.alias_)
  (⟨graphId, 2, ""⟩, graphView graphId none ⟨.ambiguous, [], [ambiguityWarning graphId aliases], false⟩
    (groups.runs.members graphId) (groups.live.members graphId) aliases)

/-- The entries of one Graph. -/
def graphEntries (topology : Dict String Freshness) (groups : Groups) (graphId : String) : List (EntryKey × GraphView) :=
  if (groups.connections.members graphId).isEmpty then [unconnectedEntry groups graphId]
  else
    ((groups.connections.members graphId).mergeSort fun first second => first.alias_ ≤ second.alias_).map
        (connectionEntry topology groups graphId) ++
      if isAmbiguous groups graphId &&
          (!(groups.runs.members graphId).isEmpty || !(groups.live.members graphId).isEmpty) then
        [ambiguousEntry groups graphId]
      else []

/-- Every advertised, recorded, or live Graph, each one once. -/
def graphIds (groups : Groups) : List String :=
  sortTexts (groups.connections.keys ++ groups.runs.keys ++ groups.live.keys).dedup

def groupsOf (connections : Dict String Probed) (runs : List RunRecord) (live : LiveViews) : Groups :=
  ⟨connectionsByGraph connections, runsByGraph runs, liveByGraph runs live⟩

/-- The catalog of recorded Runs that are already a tree. -/
def catalogOf (connections : Dict String Probed) (topology : Dict String Freshness) (runs : List RunRecord)
    (live : LiveViews) : List GraphView :=
  let groups := groupsOf connections runs live
  (((graphIds groups).flatMap (graphEntries topology groups)).mergeSort
    fun first second => first.1.before second.1).map Prod.snd

def buildCatalog (connections : Dict String Probed) (topology : Dict String Freshness) (spans : SpanMap)
    (live : LiveViews) : Checked (List GraphView) := do
  let runs ← buildExecutionTree spans
  .ok (catalogOf connections topology runs live)

end Cordboard.Viewer
