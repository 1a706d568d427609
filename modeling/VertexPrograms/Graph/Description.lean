import Std.Data.ExtHashSet
import VertexPrograms.Graph.Store

/-!
# Loading a described graph

A description lists vertices and edges by raw identifiers. It is checked as a whole before the store
takes any of it: first the vertices in order, then the edges in order. A description that passes is
then inserted; one that does not leaves the store as it was.
-/

namespace VertexPrograms

variable {V E : Type}

/-- A graph as its vertices and edges, named by raw identifiers. -/
structure Description (V E : Type) where
  vertices : List (Int × V)
  edges : List (Int × Int × E)

namespace Description

/-- The vertices a description may refer to: those of the store and those it has listed so far. -/
structure Known where
  topology : Topology
  added : Std.ExtHashSet VertexId := ∅

/-- Whether an identifier is known. -/
def Known.contains (k : Known) (id : VertexId) : Bool :=
  (k.topology.indexOf? id).isSome || k.added.contains id

/-- Checks vertices in order and turns them into vertices with proper identifiers. -/
def checkVertices (k : Known) : List (Int × V) → Except Error (List (VertexId × V) × Known)
  | [] => .ok ([], k)
  | (raw, data) :: rest => do
    let id ← VertexId.ofRaw raw
    if k.contains id then throw (.duplicateVertex id)
    let (vertices, k) ← checkVertices { k with added := k.added.insert id } rest
    return ((id, data) :: vertices, k)

/-- Checks that an identifier is known. -/
def Known.require (k : Known) (id : VertexId) : Except Error Unit :=
  if k.contains id then .ok () else .error (.unknownVertex id)

/-- Checks edges in order, against the store and against those in `listed`. -/
def checkEdges (k : Known) (listed : Std.ExtHashSet (VertexId × VertexId)) :
    List (Int × Int × E) → Except Error (List (VertexId × VertexId × E))
  | [] => .ok []
  | (rawSource, rawTarget, data) :: rest => do
    let source ← VertexId.ofRaw rawSource
    let target ← VertexId.ofRaw rawTarget
    k.require source
    k.require target
    if (k.topology.findEdge? source target).isSome || listed.contains (source, target) then
      throw (.duplicateEdge source target)
    let edges ← checkEdges k (listed.insert (source, target)) rest
    return (source, target, data) :: edges

end Description

namespace Store

/-- Inserts vertices and then edges that have been checked. -/
def insertChecked (g : Store V E) (vertices : List (VertexId × V))
    (edges : List (VertexId × VertexId × E)) : Except Error (Store V E) := do
  let g ← vertices.foldlM (fun g (id, data) => (·.2) <$> g.addVertex id data) g
  edges.foldlM (fun g (source, target, data) => (·.2) <$> g.addEdge source target data) g

/-- Loads a description into a store that may already hold vertices and edges. -/
def load (g : Store V E) (d : Description V E) : Except Error (Store V E) :=
  if g.frozen then .error (.state "set_graph" "frozen")
  else if d.vertices.isEmpty then .error .emptyGraph
  else do
    let (vertices, known) ← Description.checkVertices ⟨g.topology, ∅⟩ d.vertices
    let edges ← Description.checkEdges known ∅ d.edges
    g.insertChecked vertices edges

end Store

end VertexPrograms
