import VertexPrograms.Consistency
import VertexPrograms.Graph.Topology

/-!
# Scopes

What an update can find: the vertex it runs on, its centre, the edges at the centre, and the
vertices at the other ends of those. Everything else is out of scope, and asking for it is an error
that names the centre.
-/

namespace VertexPrograms

/-- The surroundings of one update, and the level that limits its writes. -/
structure Scope where
  topology : Topology
  centre : VertexIndex
  level : Consistency

namespace Scope

/-- The identifier of the centre. -/
def vertex (s : Scope) : VertexId := (s.topology.idAt? s.centre).getD 0

/-- The number of vertices of the whole graph. -/
def vertexCount (s : Scope) : Nat := s.topology.vertexCount

/-- The neighbours of the centre, in order of position. -/
def neighbours (s : Scope) : List VertexId := s.topology.neighboursOf s.centre

/-- Where the edges that enter the centre come from. -/
def sources (s : Scope) : List VertexId := s.topology.sourcesOf s.centre

/-- Where the edges that leave the centre lead. -/
def targets (s : Scope) : List VertexId := s.topology.targetsOf s.centre

/-- The error that the update reached too far. -/
def violation (s : Scope) (reason : String) : Error := .scopeViolation s.vertex reason

/-- The position of the centre or of a neighbour. -/
def find (s : Scope) (id : VertexId) : Except Error VertexIndex :=
  match s.topology.require id with
  | .error e => .error e
  | .ok i =>
    if i = s.centre ∨ i ∈ s.topology.adjacentOf s.centre then .ok i
    else .error (s.violation s!"vertex {id} is not adjacent")

/-- The position of a neighbour. -/
def findNeighbour (s : Scope) (id : VertexId) : Except Error VertexIndex :=
  match s.find id with
  | .error e => .error e
  | .ok i =>
    if i = s.centre then .error (s.violation "use the centre accessors for the scope's own vertex")
    else .ok i

/-- The position of a neighbour that may be written. -/
def findWritableNeighbour (s : Scope) (id : VertexId) : Except Error VertexIndex :=
  match s.findNeighbour id with
  | .error e => .error e
  | .ok i =>
    if s.level = .full then .ok i
    else .error
      (s.violation s!"writing neighbour {id} needs full consistency, scope is {s.level.name}")

/-- The position of an edge at the centre. -/
def findEdge (s : Scope) (source target : VertexId) : Except Error EdgeIndex :=
  match s.topology.require source with
  | .error e => .error e
  | .ok i =>
    match s.topology.require target with
    | .error e => .error e
    | .ok j =>
      if i ≠ s.centre ∧ j ≠ s.centre then
        .error (s.violation s!"edge {source} -> {target} is not incident")
      else
        match s.topology.edgeBetween? i j with
        | some e => .ok e
        | none => .error (.unknownEdge source target)

/-- The position of an edge at the centre that may be written. -/
def findWritableEdge (s : Scope) (source target : VertexId) : Except Error EdgeIndex :=
  match s.findEdge source target with
  | .error e => .error e
  | .ok e =>
    if s.level = .vertex then .error (s.violation "edges are read-only at vertex consistency")
    else .ok e

/-- The number of edges that leave the centre or a neighbour. -/
def outDegree (s : Scope) (id : VertexId) : Except Error Nat :=
  (fun i => (s.topology.outgoingOf i).length) <$> s.find id

/-- The number of edges that enter the centre or a neighbour. -/
def inDegree (s : Scope) (id : VertexId) : Except Error Nat :=
  (fun i => (s.topology.incomingOf i).length) <$> s.find id

end Scope

end VertexPrograms
