import VertexPrograms.Graph.Topology

/-!
# The graph store

A graph with data on its vertices and edges. It grows until it is frozen; from then on only the data
can change. An operation that is refused has no effect.
-/

namespace VertexPrograms

variable {V E : Type}

/-- The data of a graph, by position. -/
structure Cells (V E : Type) where
  vertices : Array V := #[]
  edges : Array E := #[]

/-- A graph with its data. -/
structure Store (V E : Type) where
  topology : Topology := {}
  cells : Cells V E := {}
  /-- Whether the shape is final. -/
  frozen : Bool := false

/-- Counts that describe a graph. -/
structure Stats where
  vertexCount : Nat
  edgeCount : Nat
  /-- The largest number of edge ends at a vertex. -/
  maxDegree : Nat
  /-- The number of vertices without an edge. -/
  isolated : Nat
  frozen : Bool
  deriving DecidableEq, Repr

namespace Store

/-- The number of vertices. -/
def vertexCount (g : Store V E) : Nat := g.topology.vertexCount

/-- The number of edges. -/
def edgeCount (g : Store V E) : Nat := g.topology.edgeCount

/-- Whether memory, of less than `2 ^ 63` bytes, has room for the identifiers of so many vertices.
-/
def hasRoom (n : Nat) : Bool := 4 * n < 0x8000000000000000

/-- Announces the number of vertices to come, which cannot be below the present one or more than
there is room for. -/
def resize (g : Store V E) (n : Nat) : Except Error (Store V E) :=
  if g.frozen then .error (.state "resize" "frozen")
  else if n < g.vertexCount then .error (.invalidResize n g.vertexCount)
  else if hasRoom n then .ok g
  else .error .capacity

/-- Appends a vertex: its position, and the larger store. -/
def addVertex (g : Store V E) (id : VertexId) (data : V) : Except Error (VertexIndex × Store V E) :=
  if g.frozen then .error (.state "add_vertex" "frozen")
  else
    match g.topology.addVertex id with
    | .error e => .error e
    | .ok (i, topology) =>
      .ok (i, { g with topology, cells := { g.cells with vertices := g.cells.vertices.push data } })

/-- Appends an edge: its position, and the larger store. -/
def addEdge (g : Store V E) (source target : VertexId) (data : E) :
    Except Error (EdgeIndex × Store V E) :=
  if g.frozen then .error (.state "add_edge" "frozen")
  else
    match g.topology.addEdge source target with
    | .error e => .error e
    | .ok (i, topology) =>
      .ok (i, { g with topology, cells := { g.cells with edges := g.cells.edges.push data } })

/-- Makes the shape final. -/
def freeze (g : Store V E) : Store V E := { g with frozen := true }

/-- The data of a vertex. -/
def vertexData (g : Store V E) (id : VertexId) : Except Error V :=
  match g.topology.require id with
  | .error e => .error e
  | .ok i =>
    match g.cells.vertices[i]? with
    | some data => .ok data
    | none => .error (.unknownVertex id)

/-- The data of an edge. -/
def edgeData (g : Store V E) (source target : VertexId) : Except Error E :=
  match g.topology.requireEdge source target with
  | .error e => .error e
  | .ok i =>
    match g.cells.edges[i]? with
    | some data => .ok data
    | none => .error (.unknownEdge source target)

/-- Replaces the data at a vertex position, if there is one. -/
def writeVertex? (g : Store V E) (i : VertexIndex) (data : V) : Option (Store V E) :=
  if i < g.cells.vertices.size then
    some { g with cells := { g.cells with vertices := g.cells.vertices.setIfInBounds i data } }
  else none

/-- Replaces the data at an edge position, if there is one. -/
def writeEdge? (g : Store V E) (i : EdgeIndex) (data : E) : Option (Store V E) :=
  if i < g.cells.edges.size then
    some { g with cells := { g.cells with edges := g.cells.edges.setIfInBounds i data } }
  else none

/-- Changes the data at the positions of vertices and edges. -/
def editData (g : Store V E) (vertex : VertexIndex → V → V) (edge : EdgeIndex → E → E) :
    Store V E :=
  { g with cells := ⟨g.cells.vertices.mapIdx vertex, g.cells.edges.mapIdx edge⟩ }

/-- The vertices with their data, in insertion order. -/
def vertexList (g : Store V E) : List (VertexId × V) :=
  g.topology.ids.toList.zip g.cells.vertices.toList

/-- Source, target and data of the edges, in insertion order. -/
def edgeList (g : Store V E) : List (VertexId × VertexId × E) :=
  (g.topology.edges.toList.zip g.cells.edges.toList).filterMap fun ((i, j), data) => do
    return (← g.topology.idAt? i, ← g.topology.idAt? j, data)

/-- Counts the store. -/
def stats (g : Store V E) : Stats :=
  let degrees := (List.range g.vertexCount).map g.topology.degree
  { vertexCount := g.vertexCount
    edgeCount := g.edgeCount
    maxDegree := degrees.foldl max 0
    isolated := degrees.countP (· = 0)
    frozen := g.frozen }

end Store

end VertexPrograms
