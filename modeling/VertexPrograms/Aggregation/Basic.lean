import VertexPrograms.Fault
import VertexPrograms.Globals.Routine
import VertexPrograms.Graph.Store

/-!
# Aggregators

An aggregator turns every vertex, and those edges it cares for, into partial results, combines them
all, and does something with the total, usually writing it into a global. Combining is meant to be
associative and commutative with the identity as neutral element, so that it does not matter how the
work is divided. One such run over the whole graph is a pass.
-/

namespace VertexPrograms

/-- A map-and-combine computation over a graph with partial results in `T`. -/
structure Aggregator (V E T : Type) where
  identity : T
  /-- The part of a vertex. -/
  mapVertex : VertexId → V → Except Fault T
  /-- The part of an edge from a source to a target, if it has one. -/
  mapEdge : VertexId → VertexId → E → Except Fault (Option T) := fun _ _ _ => .ok none
  combine : T → T → T
  /-- What is done with the total. -/
  finalize : T → Globals.Routine (Except Fault Unit)

/-- A pass with the type of its partial results forgotten: it reads the graph and uses the globals.
-/
abbrev Pass (V E : Type) := Topology → Cells V E → Globals → Except Fault Unit × Globals

namespace Aggregator

variable {V E T : Type}

/-- The parts of the vertices, in order of position. -/
def vertexParts (a : Aggregator V E T) (t : Topology) (c : Cells V E) : Except Fault (List T) :=
  (t.ids.toList.zip c.vertices.toList).mapM fun (id, data) => a.mapVertex id data

/-- The parts of the edges that have one, in order of position. -/
def edgeParts (a : Aggregator V E T) (t : Topology) (c : Cells V E) : Except Fault (List T) :=
  (t.edges.toList.zip c.edges.toList).filterMapM fun ((i, j), data) =>
    match t.idAt? i, t.idAt? j with
    | some source, some target => a.mapEdge source target data
    | _, _ => .ok none

/-- Combines parts one after another, starting from the identity. -/
def fold (a : Aggregator V E T) (parts : List T) : T := parts.foldl a.combine a.identity

/-- The total of a graph: that of the vertices combined with that of the edges. -/
def total (a : Aggregator V E T) (t : Topology) (c : Cells V E) : Except Fault T := do
  let vertices ← a.vertexParts t c
  let edges ← a.edgeParts t c
  return a.combine (a.fold vertices) (a.fold edges)

/-- A pass: the total is computed and then finalized. -/
def pass (a : Aggregator V E T) : Pass V E := fun t c g =>
  match a.total t c with
  | .error fault => (.error fault, g)
  | .ok total => (a.finalize total).run g

end Aggregator

end VertexPrograms
