import VertexPrograms.Graph.Store
import VertexPrograms.Scope.Basic

/-!
# Access to data

The calls by which an update reads and writes the data in its scope. Each call touches one cell and
is atomic; a call that is refused changes nothing. A write names the function to be applied to the
data and answers the data from before, so every way of changing data and learning something about it
at the same time is such a call.
-/

namespace VertexPrograms

/-- One access to the data of a scope. -/
inductive Access (V E : Type) where
  | readCentre
  | writeCentre (f : V → V)
  | readNeighbour (id : VertexId)
  | writeNeighbour (id : VertexId) (f : V → V)
  | readEdge (source target : VertexId)
  | writeEdge (source target : VertexId) (f : E → E)

namespace Access

variable {V E : Type}

/-- What an access answers when it is not refused: the data found. -/
def Answer : Access V E → Type
  | readCentre | writeCentre _ | readNeighbour _ | writeNeighbour _ _ => V
  | readEdge _ _ | writeEdge _ _ _ => E

end Access

namespace Cells

variable {V E : Type}

/-- The data of a vertex; the error names the scope's centre as the vertex that has none. -/
def readVertex (c : Cells V E) (s : Scope) (i : VertexIndex) : Except Error V :=
  match c.vertices[i]? with
  | some data => .ok data
  | none => .error (.unknownVertex s.vertex)

/-- The data of an edge. -/
def readEdge (c : Cells V E) (source target : VertexId) (i : EdgeIndex) : Except Error E :=
  match c.edges[i]? with
  | some data => .ok data
  | none => .error (.unknownEdge source target)

/-- Applies a function to the data of a vertex. -/
def modifyVertex (c : Cells V E) (i : VertexIndex) (f : V → V) : Cells V E :=
  { c with vertices := c.vertices.modify i f }

/-- Applies a function to the data of an edge. -/
def modifyEdge (c : Cells V E) (i : EdgeIndex) (f : E → E) : Cells V E :=
  { c with edges := c.edges.modify i f }

/-- Makes an access within a scope: its answer, and the data after it. -/
def perform (c : Cells V E) (s : Scope) : (a : Access V E) → Except Error a.Answer × Cells V E
  | .readCentre => (c.readVertex s s.centre, c)
  | .writeCentre f => (c.readVertex s s.centre, c.modifyVertex s.centre f)
  | .readNeighbour id =>
    match s.findNeighbour id with
    | .error e => (.error e, c)
    | .ok i => (c.readVertex s i, c)
  | .writeNeighbour id f =>
    match s.findWritableNeighbour id with
    | .error e => (.error e, c)
    | .ok i => (c.readVertex s i, c.modifyVertex i f)
  | .readEdge source target =>
    match s.findEdge source target with
    | .error e => (.error e, c)
    | .ok i => (c.readEdge source target i, c)
  | .writeEdge source target f =>
    match s.findWritableEdge source target with
    | .error e => (.error e, c)
    | .ok i => (c.readEdge source target i, c.modifyEdge i f)

end Cells

end VertexPrograms
