import Std.Data.ExtHashMap
import VertexPrograms.Error

/-!
# The shape of a graph

Vertices and directed edges without their data. Vertices are numbered in insertion order and known
outside by identifier; at most one edge leads from one vertex to another, and an edge may be a loop.
Beside the edge list stand the lists that answer questions about one vertex: the edges that leave
it, the edges that enter it, and its neighbours in either direction, itself excluded, in ascending
order.
-/

namespace VertexPrograms

/-- Inserts a number into an ascending list, unless it is there. -/
def insertAscending (n : Nat) : List Nat → List Nat
  | [] => [n]
  | m :: ms =>
    if n < m then n :: m :: ms
    else if n = m then m :: ms
    else m :: insertAscending n ms

/-- The vertices and edges of a graph. -/
structure Topology where
  /-- Identifiers in insertion order. -/
  ids : Array VertexId := #[]
  /-- The position of each identifier. -/
  index : Std.ExtHashMap VertexId VertexIndex := ∅
  /-- Source and target of each edge, in insertion order. -/
  edges : Array (VertexIndex × VertexIndex) := #[]
  /-- The position of each edge. -/
  edgeIndex : Std.ExtHashMap (VertexIndex × VertexIndex) EdgeIndex := ∅
  /-- The edges that leave each vertex, in insertion order. -/
  outgoing : Array (Array EdgeIndex) := #[]
  /-- The edges that enter each vertex, in insertion order. -/
  incoming : Array (Array EdgeIndex) := #[]
  /-- The neighbours of each vertex, ascending. -/
  adjacent : Array (List VertexIndex) := #[]

namespace Topology

/-- The number of vertices. -/
def vertexCount (t : Topology) : Nat := t.ids.size

/-- The number of edges. -/
def edgeCount (t : Topology) : Nat := t.edges.size

/-- The position of an identifier. -/
def indexOf? (t : Topology) (id : VertexId) : Option VertexIndex := t.index[id]?

/-- The position of an identifier, or the error that it is unknown. -/
def require (t : Topology) (id : VertexId) : Except Error VertexIndex :=
  match t.indexOf? id with
  | some i => .ok i
  | none => .error (.unknownVertex id)

/-- The identifier at a position. -/
def idAt? (t : Topology) (i : VertexIndex) : Option VertexId := t.ids[i]?

/-- The identifiers at those of the positions that exist. -/
def idsAt (t : Topology) (is : List VertexIndex) : List VertexId := is.filterMap t.idAt?

/-- Source and target of an edge. -/
def endpoints? (t : Topology) (e : EdgeIndex) : Option (VertexIndex × VertexIndex) := t.edges[e]?

/-- The edge from one position to another. -/
def edgeBetween? (t : Topology) (source target : VertexIndex) : Option EdgeIndex :=
  t.edgeIndex[(source, target)]?

/-- The edge from one identifier to another. -/
def findEdge? (t : Topology) (source target : VertexId) : Option EdgeIndex := do
  t.edgeBetween? (← t.indexOf? source) (← t.indexOf? target)

/-- The edge from one identifier to another, or the error that there is none. -/
def requireEdge (t : Topology) (source target : VertexId) : Except Error EdgeIndex :=
  match t.findEdge? source target with
  | some e => .ok e
  | none => .error (.unknownEdge source target)

/-- The edges that leave a vertex. -/
def outgoingOf (t : Topology) (i : VertexIndex) : List EdgeIndex :=
  ((t.outgoing[i]?).getD #[]).toList

/-- The edges that enter a vertex. -/
def incomingOf (t : Topology) (i : VertexIndex) : List EdgeIndex :=
  ((t.incoming[i]?).getD #[]).toList

/-- The neighbours of a vertex. -/
def adjacentOf (t : Topology) (i : VertexIndex) : List VertexIndex := (t.adjacent[i]?).getD []

/-- Where the edges that leave a vertex lead. -/
def targetsOf (t : Topology) (i : VertexIndex) : List VertexId :=
  t.idsAt ((t.outgoingOf i).filterMap fun e => (t.endpoints? e).map (·.2))

/-- Where the edges that enter a vertex come from. -/
def sourcesOf (t : Topology) (i : VertexIndex) : List VertexId :=
  t.idsAt ((t.incomingOf i).filterMap fun e => (t.endpoints? e).map (·.1))

/-- The identifiers of the neighbours of a vertex. -/
def neighboursOf (t : Topology) (i : VertexIndex) : List VertexId := t.idsAt (t.adjacentOf i)

/-- The number of edge ends at a vertex; a loop has two. -/
def degree (t : Topology) (i : VertexIndex) : Nat :=
  (t.outgoingOf i).length + (t.incomingOf i).length

/-- Appends a vertex with an identifier that is not taken. -/
def pushVertex (t : Topology) (id : VertexId) : Topology :=
  let i := t.vertexCount
  { t with
    ids := t.ids.push id
    index := t.index.insert id i
    outgoing := t.outgoing.push #[]
    incoming := t.incoming.push #[]
    adjacent := t.adjacent.push [] }

/-- Makes two vertices neighbours. A vertex is no neighbour of itself. -/
def link (adjacent : Array (List VertexIndex)) (i j : VertexIndex) : Array (List VertexIndex) :=
  if i = j then adjacent
  else (adjacent.modify i (insertAscending j)).modify j (insertAscending i)

/-- Appends an edge between two positions that none joins in this direction. -/
def pushEdge (t : Topology) (source target : VertexIndex) : Topology :=
  let e := t.edgeCount
  { t with
    edges := t.edges.push (source, target)
    edgeIndex := t.edgeIndex.insert (source, target) e
    outgoing := t.outgoing.modify source (·.push e)
    incoming := t.incoming.modify target (·.push e)
    adjacent := link t.adjacent source target }

/-- Appends a vertex: its position, and the larger graph. -/
def addVertex (t : Topology) (id : VertexId) : Except Error (VertexIndex × Topology) :=
  if (t.indexOf? id).isSome then .error (.duplicateVertex id)
  else .ok (t.vertexCount, t.pushVertex id)

/-- Appends an edge: its position, and the larger graph. -/
def addEdge (t : Topology) (source target : VertexId) : Except Error (EdgeIndex × Topology) :=
  match t.require source with
  | .error e => .error e
  | .ok i =>
    match t.require target with
    | .error e => .error e
    | .ok j =>
      if (t.edgeBetween? i j).isSome then .error (.duplicateEdge source target)
      else .ok (t.edgeCount, t.pushEdge i j)

end Topology

end VertexPrograms
