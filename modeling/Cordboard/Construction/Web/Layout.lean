import Cordboard.Construction.Archive.Query
import Cordboard.Data.Group

namespace Cordboard.Presentation
open Data Archive

/-- A Node may call a child Graph of the same document. -/
structure Node where
  id : String
  subgraphId : Option String

structure Edge where
  source : String
  target : String
  kind : String

/-- The members that only the topology package reads stand in `rest`. -/
structure Structure where
  nodes : List Node
  edges : List Edge
  entryNodeIds : List String
  rest : List (String × Json)

def Structure.nodeIds (structure_ : Structure) : List String := structure_.nodes.map Node.id

/-- This is `derived_join_edges` of the topology package. -/
abbrev JoinEdges : Type := Structure → List Edge

structure PlacedNode where
  id : String
  x : ℚ
  y : ℚ

structure PlacedEdge where
  edge : Edge
  start : ℚ × ℚ
  stop : ℚ × ℚ

structure Diagram where
  width : ℚ
  height : ℚ
  nodes : List PlacedNode
  edges : List PlacedEdge

/-- This is `table[key]`. -/
def index {K V : Type} [DecidableEq K] (table : Dict K V) (key : K) : Checked V :=
  match table.get? key with
  | some value => .ok value
  | none => .error .key

/-- A join edge is drawn like any other one. -/
def allEdges (derivedJoinEdges : JoinEdges) (structure_ : Structure) : List Edge :=
  structure_.edges ++ (derivedJoinEdges structure_).map fun edge => { edge with kind := "AND join" }

/-- Each edge appends its target to the list of its source. -/
def adjacencyOf (nodes : List String) (edges : List Edge) : Checked (Dict String (List String)) :=
  edges.foldlM (fun adjacency edge => do
    let targets ← index adjacency edge.source
    .ok (adjacency.set edge.source (targets ++ [edge.target]))) (Dict.ofPairs (nodes.map fun node => (node, [])))

/-- A target without a depth gets the next one and enters the queue. -/
def discover (depth : Nat) (found : Dict String Nat × List String) (target : String) : Dict String Nat × List String :=
  if target ∈ found.1.keys then found else (found.1.set target (depth + 1), found.2 ++ [target])

/-- The loop over the queue. Its first argument bounds the Nodes that leave the queue. -/
def search (adjacency : Dict String (List String)) : Nat → Dict String Nat → List String → Checked (Dict String Nat)
  | _, depths, [] => .ok depths
  | 0, _, _ :: _ => .error .unfinished
  | fuel + 1, depths, node :: queue => do
      let targets ← index adjacency node
      let depth ← index depths node
      let found := targets.foldl (discover depth) (depths, queue)
      search adjacency fuel found.1 found.2

/-- A root without a depth starts a search one row below all others. -/
def assign (adjacency : Dict String (List String)) (fuel : Nat) : Dict String Nat → List String → Checked (Dict String Nat)
  | depths, [] => .ok depths
  | depths, root :: roots =>
      if root ∈ depths.keys then assign adjacency fuel depths roots
      else do
        let depth := ((depths.items.map Prod.snd).max?.map (· + 1)).getD 0
        let searched ← search adjacency fuel (depths.set root depth) [root]
        assign adjacency fuel searched roots

/-- The rows hold their Nodes in the order of the document. -/
def rowsOf (depths : Dict String Nat) (nodes : List String) : Checked (Dict Nat (List String)) := do
  let placed ← nodes.mapM fun node => do
    let depth ← index depths node
    .ok (depth, node)
  .ok (Dict.group placed)

def widthOf (rows : Dict Nat (List String)) : Nat := ((rows.items.map fun row => row.2.length).max?.getD 1) * 240

def heightOf (rows : Dict Nat (List String)) : Nat := ((rows.items.map Prod.fst).max?.getD 0 + 1) * 100

/-- The Nodes of a row share the width. -/
def position (width depth length col : Nat) : ℚ × ℚ := (width * (col + 1 / 2) / length, depth * 100 + 40)

def positionsOf (rows : Dict Nat (List String)) : Dict String (ℚ × ℚ) :=
  Dict.ofPairs (rows.items.flatMap fun row =>
    row.2.zipIdx.map fun entry => (entry.1, position (widthOf rows) row.1 row.2.length entry.2))

def layout (derivedJoinEdges : JoinEdges) (structure_ : Structure) : Checked Diagram := do
  let nodes := structure_.nodeIds
  let edges := allEdges derivedJoinEdges structure_
  let adjacency ← adjacencyOf nodes edges
  let depths ← assign adjacency (nodes.length + 1) Dict.empty (structure_.entryNodeIds ++ nodes)
  let rows ← rowsOf depths nodes
  let positions := positionsOf rows
  let placed ← nodes.mapM fun node => do
    let at_ ← index positions node
    .ok (⟨node, at_.1, at_.2⟩ : PlacedNode)
  let drawn ← edges.mapM fun edge => do
    let start ← index positions edge.source
    let stop ← index positions edge.target
    .ok (⟨edge, start, stop⟩ : PlacedEdge)
  .ok ⟨widthOf rows, heightOf rows, placed, drawn⟩

end Cordboard.Presentation
