import Cordboard.Construction.Connections
import Cordboard.Construction.Web.Layout

namespace Cordboard.Topology
open Data Connections Url

/-- A Node may interrupt the Run. -/
structure Node where
  id : String
  interrupts : List String

/-- The extension of a graph is not part of the schema. -/
structure Graph where
  id : String
  nodes : List Node
  edges : List Presentation.Edge
  interpretation : Option Json

structure Gap where
  code : String
  elementKind : String
  elementId : String
  message : String

structure Limitation where
  code : String
  message : String

/-- The fields of a valid document. The document itself is passed through. -/
structure Document where
  source : Json
  structureHash : String
  graphs : List Graph
  gaps : List Gap
  producerLimitations : List Limitation

/-- The pinned schema lists the errors of a document, or the document has the fields that the schema requires. -/
abbrev Schema : Type := Json → Except (List String) Document

inductive ReadingStatus where
  | absent
  | unreachable
  | invalid
  | valid
deriving DecidableEq

/-- One fetch attempt. Only a valid reading has a document. -/
structure TopologyReading where
  status : ReadingStatus
  document : Option Document
  errors : List String
  reason : Option String
  documented : document.isSome = (status == .valid)

/-- The request times out, fails, or returns a response. -/
inductive Reply where
  | timeout
  | failed
  | response (answer : HttpResponse)

def wellKnownPath : String := "/.well-known/agent-topology.manifest.json"

/-- The reading of one reply. -/
def readReply (schema : Schema) : Reply → TopologyReading
  | .timeout => ⟨.unreachable, none, [], some "timeout", rfl⟩
  | .failed => ⟨.unreachable, none, [], some "connection_error", rfl⟩
  | .response answer =>
      if answer.statusCode = 404 then ⟨.absent, none, [], none, rfl⟩
      else if answer.statusCode ≠ 200 then
        ⟨.unreachable, none, [], some ("http_" ++ toString answer.statusCode), rfl⟩
      else
        match answer.body with
        | none => ⟨.invalid, none, ["response body is not valid JSON"], none, rfl⟩
        | some raw =>
            match schema raw with
            | .error errors => ⟨.invalid, none, errors, none, rfl⟩
            | .ok document => ⟨.valid, some document, [], none, rfl⟩

section
variable (refusal : Refusal) (schema : Schema)

/-- The server answers the URL of the well-known document. -/
def fetchTopology (endpoint : String) (serve : String → Reply) : Except Exc TopologyReading := do
  let endpoint ← validateEndpoint refusal endpoint
  .ok (readReply schema (serve (endpoint ++ wellKnownPath)))

structure Snapshot where
  fetchedAt : String
  structureHash : String
  document : Document

abbrev Snapshots : Type := Dict String Snapshot

/-- A `TopologySnapshotError` is a `ValueError`. -/
def loadSnapshots (file : File Snapshots) : Except Exc Snapshots :=
  match file with
  | .missing => .ok Dict.empty
  | .unreadable .notJson =>
      .error ⟨.value, "snapshots file is not valid JSON: .cordboard/topology-snapshots.json"⟩
  | .unreadable .wrongShape => .error ⟨.value,
      "snapshots file must be a JSON object of endpoint -> snapshot: .cordboard/topology-snapshots.json"⟩
  | .content data => .ok data

def getSnapshot (file : File Snapshots) (endpoint : String) : Except Exc (Option Snapshot) := do
  let data ← loadSnapshots file
  let endpoint ← validateEndpoint refusal endpoint
  .ok (data.get? endpoint)

/-- A reading without a valid document never touches the file. -/
def refreshSnapshot (file : File Snapshots) (endpoint : String) (serve : String → Reply) (now : String) :
    Except Exc (File Snapshots × TopologyReading) := do
  let endpoint ← validateEndpoint refusal endpoint
  let reading ← fetchTopology refusal schema endpoint serve
  match reading.document with
  | none => .ok (file, reading)
  | some document =>
      let data ← loadSnapshots file
      .ok (.content ((data.set endpoint ⟨now, document.structureHash, document⟩).sortBy id), reading)

inductive FreshnessStatus where
  | noSnapshot
  | unchanged
  | changed
  | absent
  | unreachable
  | invalid
deriving DecidableEq

structure FreshnessCheck where
  status : FreshnessStatus
  reading : TopologyReading

/-- A reading that is not valid decides the status alone. -/
def ReadingStatus.unconfirmed : ReadingStatus → FreshnessStatus
  | .absent => .absent
  | .unreachable => .unreachable
  | _ => .invalid

/-- A fresh document is compared with the stored one and does not replace it. -/
def checkFreshness (file : File Snapshots) (endpoint : String) (serve : String → Reply) :
    Except Exc FreshnessCheck := do
  let endpoint ← validateEndpoint refusal endpoint
  let reading ← fetchTopology refusal schema endpoint serve
  match reading.document with
  | none => .ok ⟨reading.status.unconfirmed, reading⟩
  | some document =>
      let stored ← getSnapshot refusal file endpoint
      match stored with
      | none => .ok ⟨.noSnapshot, reading⟩
      | some snapshot =>
          .ok ⟨if snapshot.structureHash ≠ document.structureHash then .changed else .unchanged, reading⟩

end

/-- The reader understands these revisions of the extension. -/
def recognizedVersions : List String := ["1", "2"]

def notIterable {A : Type} (typeName : String) : Except Exc A :=
  .error ⟨.type, "'" ++ typeName ++ "' object is not iterable"⟩

/-- Python iterates a text by its letters and an object by its names. A number is not iterable. -/
def iterate : Json → Except Exc (List Json)
  | .arr items => .ok items
  | .str text => .ok (text.toList.map fun c => .str (String.singleton c))
  | .obj members => .ok (members.map fun member => .str member.1)
  | .null => notIterable "NoneType"
  | .bool _ => notIterable "bool"
  | .int _ => notIterable "int"
  | .float _ => notIterable "float"

/-- The branch of a known Node. -/
def knownBranch : Json → Option (String × Json)
  | .obj members =>
      match members.lookup "branch", members.lookup "nodeId" with
      | some (.obj branch), some (.str nodeId) =>
          if ((branch.lookup "status").getD .null).pyEq (.str "known") then
            some (nodeId, (branch.lookup "value").getD .null)
          else none
      | _, _ => none
  | _ => none

/-- The extension of a recognized revision. -/
def recognizedExtension (graph : Graph) : Option (List (String × Json)) :=
  match graph.interpretation with
  | some (.obj extension) =>
      if recognizedVersions.any fun version => ((extension.lookup "version").getD .null).pyEq (.str version) then
        some extension
      else none
  | _ => none

/-- The last known branch of a Node counts. -/
def branchInterpretation (graph : Graph) : Except Exc (Dict String Json) :=
  match recognizedExtension graph with
  | none => .ok Dict.empty
  | some extension => do
      let nodes ← iterate (((extension.lookup "nodes").getD .null).orElse (.arr []))
      .ok (Dict.ofPairs (nodes.filterMap knownBranch))

structure ParallelInterruptWarning where
  graphId : String
  sourceNodeId : String
  fanoutTargetIds : List String
  interruptedTargetIds : List String
  confirmed : Bool
deriving DecidableEq

def interruptedNodes (graph : Graph) : List String :=
  (graph.nodes.filter fun node => !node.interrupts.isEmpty).map Node.id

def fanout (graph : Graph) : Dict String (List String) :=
  Dict.group ((graph.edges.filter fun edge => edge.kind = "direct").map fun edge => (edge.source, edge.target))

/-- A source with two direct edges fans out. It is reported when one of its targets interrupts. -/
def sourceWarning (graph : Graph) (interpretation : Dict String Json) (source : String) (targets : List String) :
    Option ParallelInterruptWarning :=
  let hit := Viewer.sortTexts (targets.filter fun target => target ∈ interruptedNodes graph)
  if targets.length < 2 then none
  else if hit.isEmpty then none
  else
    some ⟨graph.id, source, Viewer.sortTexts targets, hit,
      ((interpretation.get? source).getD .null).pyEq (.str "all-declared")⟩

def graphWarnings (graph : Graph) : Except Exc (List ParallelInterruptWarning) :=
  if (interruptedNodes graph).isEmpty then .ok []
  else do
    let interpretation ← branchInterpretation graph
    .ok ((fanout graph).items.filterMap fun item => sourceWarning graph interpretation item.1 item.2)

def parallelInterruptWarnings (document : Document) : Except Exc (List ParallelInterruptWarning) := do
  let warnings ← document.graphs.mapM graphWarnings
  .ok warnings.flatten

/-- The text of a warning in the viewer. -/
def ParallelInterruptWarning.text (warning : ParallelInterruptWarning) : String :=
  "fan-out interrupt [" ++
    (if warning.confirmed then "confirmed" else "unconfirmed (branch semantics not verifiable)") ++
    "] in graph '" ++ warning.graphId ++ "': '" ++ warning.sourceNodeId ++ "' fans out into interrupted node(s) " ++
    ", ".intercalate warning.interruptedTargetIds

def Gap.text (gap : Gap) : String :=
  "gap [" ++ gap.code ++ "] " ++ gap.elementKind ++ " '" ++ gap.elementId ++ "': " ++ gap.message

def Limitation.text (limitation : Limitation) : String :=
  "producer limitation [" ++ limitation.code ++ "]: " ++ limitation.message

def documentWarnings (document : Document) : Except Exc (List String) := do
  let warnings ← parallelInterruptWarnings document
  .ok (warnings.map ParallelInterruptWarning.text ++ document.gaps.map Gap.text ++
    document.producerLimitations.map Limitation.text)

/-- The viewer reads the ids of the graphs and of their Nodes. -/
def Document.published (document : Document) : List Viewer.DocumentGraph :=
  document.graphs.map fun graph => ⟨graph.id, graph.nodes.map Node.id⟩

/-- The viewer reads the document of a check only when the document is current. -/
def FreshnessCheck.shown (check : FreshnessCheck) : Except Exc Viewer.Freshness :=
  match check.status, check.reading.document with
  | .absent, _ => .ok .absent
  | .unreachable, _ => .ok .unreachable
  | .changed, _ => .ok .changed
  | .invalid, _ => .ok .invalid
  | _, none => .error ⟨.type, "'NoneType' object is not subscriptable"⟩
  | _, some document => do
      let warnings ← documentWarnings document
      .ok (.current ⟨document.published, warnings⟩)

/-- This is `correlate_topology` on the check of one endpoint. -/
def correlate (check : FreshnessCheck) (graphId : String) (graphMap : Dict String String) :
    Except Exc Viewer.Correlation := do
  let freshness ← check.shown
  .ok (Viewer.correlateTopology (some freshness) graphId graphMap)

/-- A snapshot is refreshed on request only. A check reads it. -/
inductive Op where
  | refresh (endpoint : String) (serve : String → Reply) (now : String)
  | check (endpoint : String) (serve : String → Reply)

def afterOp (refusal : Refusal) (schema : Schema) (file : File Snapshots) : Op → File Snapshots
  | .refresh endpoint serve now =>
      match refreshSnapshot refusal schema file endpoint serve now with
      | .ok (file, _) => file
      | .error _ => file
  | .check .. => file

def afterOps (refusal : Refusal) (schema : Schema) (file : File Snapshots) (ops : List Op) : File Snapshots :=
  ops.foldl (afterOp refusal schema) file

end Cordboard.Topology
