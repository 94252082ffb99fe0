import Cordboard.Construction.Web.Layout

namespace Cordboard.Presentation
open Data Archive

/-- One graph of a topology document with its structure. -/
structure PublishedGraph where
  id : String
  structure_ : Structure

/-- A reference into the document is recorded once. The top of the stack stands first. -/
def follow (byId : Dict String Structure) (state : Dict String Structure × List Structure) (node : Node) :
    Dict String Structure × List Structure :=
  match node.subgraphId with
  | none => state
  | some address =>
      match byId.get? address with
      | none => state
      | some child =>
          if address ∈ state.1.keys then state else (state.1.set address child, child :: state.2)

/-- The loop over the stack. Its first argument bounds the structures that leave the stack. -/
def followAll (byId : Dict String Structure) : Nat → Dict String Structure → List Structure →
    Checked (Dict String Structure)
  | _, found, [] => .ok found
  | 0, _, _ :: _ => .error .unfinished
  | fuel + 1, found, structure_ :: pending =>
      let state := structure_.nodes.foldl (follow byId) (found, pending)
      followAll byId fuel state.1 state.2

def byId (documentGraphs : List PublishedGraph) : Dict String Structure :=
  Dict.ofPairs (documentGraphs.map fun graph => (graph.id, graph.structure_))

/-- This is `_referenced_subgraphs`. -/
def referencedSubgraphs (documentGraphs : List PublishedGraph) (structure_ : Structure) : Checked (Dict String Structure) :=
  followAll (byId documentGraphs) (documentGraphs.length + 1) Dict.empty [structure_]

inductive ExpansionStatus where
  | resolved
  | cyclic
  | unresolved
deriving DecidableEq

/-- One expandable entry. -/
structure Expansion where
  node : String
  address : String
  key : String
  status : ExpansionStatus
  diagram : Option Diagram
  children : List Expansion

/-- The key of a call site has the indexes of the Nodes on the way to it. -/
def expansionKey (path : List Nat) : String := "subgraph-" ++ "-".intercalate (path.map toString)

/-- The Nodes of a structure that name an address, with their indexes. -/
def references (structure_ : Structure) : List (Nat × Node × String) :=
  structure_.nodes.zipIdx.filterMap fun entry => entry.1.subgraphId.map fun address => (entry.2, entry.1, address)

/-- The first argument bounds the depth of the nested calls. -/
def expand (derivedJoinEdges : JoinEdges) (subgraphs : Dict String Structure) : Nat → Structure → List Nat → List String →
    Checked (List Expansion)
  | 0, _, _, _ => .error .unfinished
  | fuel + 1, structure_, path, ancestors =>
      (references structure_).mapM fun reference =>
        let (index, node, address) := reference
        let key := expansionKey (path ++ [index])
        if address ∈ ancestors then .ok ⟨node.id, address, key, .cyclic, none, []⟩
        else
          match subgraphs.get? address with
          | none => .ok ⟨node.id, address, key, .unresolved, none, []⟩
          | some child => do
              let diagram ← layout derivedJoinEdges child
              let children ← expand derivedJoinEdges subgraphs fuel child (path ++ [index]) (ancestors ++ [address])
              .ok ⟨node.id, address, key, .resolved, some diagram, children⟩

/-- Without a structure there is nothing to expand. -/
def expansions (derivedJoinEdges : JoinEdges) (structure_ : Option Structure) (subgraphs : Dict String Structure) :
    Checked (List Expansion) :=
  match structure_ with
  | none => .ok []
  | some structure_ => expand derivedJoinEdges subgraphs (subgraphs.keys.length + 1) structure_ [] []

mutual

/-- An entry and all entries below it. -/
def Expansion.flatten : Expansion → List Expansion
  | entry@⟨_, _, _, _, _, children⟩ => entry :: flattenExpansions children

/-- All entries of the page. -/
def flattenExpansions : List Expansion → List Expansion
  | [] => []
  | entry :: rest => entry.flatten ++ flattenExpansions rest

end

end Cordboard.Presentation
