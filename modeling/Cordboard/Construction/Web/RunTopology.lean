import Cordboard.Construction.Web.Expansions

namespace Cordboard.Presentation
open Data Archive

/-- One recorded Step as the page reads it. -/
structure StepView where
  node : String
  outcome : String
  awaitingResume : Bool
  childSteps : List StepView

inductive NodeStatus where
  | notObserved
  | paused
  | repeated
  | failed
  | passed
deriving DecidableEq

/-- This is `_node_status`. -/
def nodeStatus (nodeSteps : List StepView) : NodeStatus :=
  match nodeSteps with
  | [] => .notObserved
  | first :: rest =>
      if (first :: rest).any StepView.awaitingResume then .paused
      else if !rest.isEmpty then .repeated
      else if first.outcome ∈ ["failed", "halted"] then .failed
      else .passed

structure RunNode where
  placed : PlacedNode
  steps : List StepView
  status : NodeStatus

/-- The layout of one level with its Steps and its calls. -/
structure RunDiagram (Call : Type) where
  width : ℚ
  height : ℚ
  nodes : List RunNode
  edges : List PlacedEdge
  unmatchedSteps : List StepView
  childCalls : List Call

inductive CallStatus where
  | resolved
  | undeclared
  | unresolved
deriving DecidableEq

/-- One recorded call of a child Graph. -/
structure ChildCall where
  node : String
  occurrence : Nat
  key : String
  address : Option String
  status : CallStatus
  diagram : Option (RunDiagram ChildCall)
  childCalls : List ChildCall

/-- The texts of a call path are the ids and the occurrences in turn. -/
def callTexts (path : List (String × Nat)) : List String := path.flatMap fun call => [call.1, toString call.2]

def callKey (path : List (String × Nat)) : String := "run-subgraph-" ++ "-".intercalate (callTexts path)

/-- The Steps of each name in order. -/
def stepsByNode (steps : List StepView) : Dict String (List StepView) :=
  Dict.group (steps.map fun step => (step.node, step))

def subgraphByNode (structure_ : Structure) : Dict String (Option String) :=
  Dict.ofPairs (structure_.nodes.map fun node => (node.id, node.subgraphId))

/-- The Steps of the Nodes that recorded a call, with the id and the occurrence. -/
def recordedCalls (nodes : List String) (byNode : Dict String (List StepView)) : List (String × Nat × StepView) :=
  nodes.flatMap fun node => (byNode.members node).zipIdx.filterMap fun entry =>
    if entry.1.childSteps.isEmpty then none else some (node, entry.2, entry.1)

/-- The Steps of a name that is no Node. -/
def unmatchedSteps (nodeIds : List String) (byNode : Dict String (List StepView)) : List StepView :=
  byNode.items.flatMap fun group => if group.1 ∈ nodeIds then [] else group.2

/-- One entry of the loop. The first argument overlays the child. -/
def callEntry (nest : Structure → List StepView → List (String × Nat) → Checked (RunDiagram ChildCall))
    (subgraphs : Dict String Structure) (structure_ : Structure) (path : List (String × Nat))
    (call : String × Nat × StepView) : Checked ChildCall :=
  let (node, occurrence, step) := call
  let address := ((subgraphByNode structure_).get? node).join
  let key := callKey (path ++ [(node, occurrence)])
  match address with
  | none => .ok ⟨node, occurrence, key, address, .undeclared, none, []⟩
  | some named =>
      match subgraphs.get? named with
      | none => .ok ⟨node, occurrence, key, address, .unresolved, none, []⟩
      | some child => do
          let nested ← nest child step.childSteps (path ++ [(node, occurrence)])
          .ok ⟨node, occurrence, key, address, .resolved, some nested, nested.childCalls⟩

/-- The first argument bounds the depth of the nested calls. -/
def overlay (derivedJoinEdges : JoinEdges) (subgraphs : Dict String Structure) : Nat → Structure → List StepView →
    List (String × Nat) → Checked (RunDiagram ChildCall)
  | 0, _, _, _ => .error .unfinished
  | fuel + 1, structure_, steps, path => do
      let diagram ← layout derivedJoinEdges structure_
      let byNode := stepsByNode steps
      let nodes := diagram.nodes.map fun node => (⟨node, byNode.members node.id, nodeStatus (byNode.members node.id)⟩ : RunNode)
      let childCalls ← (recordedCalls (diagram.nodes.map PlacedNode.id) byNode).mapM
        (callEntry (overlay derivedJoinEdges subgraphs fuel) subgraphs structure_ path)
      .ok ⟨diagram.width, diagram.height, nodes, diagram.edges, unmatchedSteps structure_.nodeIds byNode, childCalls⟩

mutual

/-- The levels of Steps below a Step and its own one. -/
def StepView.depth : StepView → Nat
  | ⟨_, _, _, childSteps⟩ => depthOf childSteps + 1

/-- The levels of a list of Steps. -/
def depthOf : List StepView → Nat
  | [] => 0
  | step :: rest => max step.depth (depthOf rest)

end

/-- There is nothing to show without a structure. -/
def runTopology (derivedJoinEdges : JoinEdges) (structure_ : Option Structure) (steps : List StepView)
    (subgraphs : Dict String Structure) : Checked (Option (RunDiagram ChildCall)) :=
  match structure_ with
  | none => .ok none
  | some structure_ => do
      let diagram ← overlay derivedJoinEdges subgraphs (depthOf steps + 1) structure_ steps []
      .ok (some diagram)

mutual

/-- An entry and all entries nested in it. -/
def ChildCall.flatten : ChildCall → List ChildCall
  | call@⟨_, _, _, _, _, _, childCalls⟩ => call :: flattenCalls childCalls

/-- All entries of the page. -/
def flattenCalls : List ChildCall → List ChildCall
  | [] => []
  | call :: rest => call.flatten ++ flattenCalls rest

end

end Cordboard.Presentation
