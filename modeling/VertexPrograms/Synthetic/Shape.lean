/-!
# Synthetic graphs

Two families of graphs with a size: rings and square grids. The vertices are numbered from zero on.
-/

namespace VertexPrograms

/-- A family of synthetic graphs. -/
inductive Shape where
  /-- As many vertices as the size says, each with an edge to the next and the last with one to the
  first. -/
  | ring
  /-- A square with as many rows as the size says, and edges to the right and down. -/
  | grid
  deriving DecidableEq, Repr

namespace Shape

/-- The name of a shape. -/
def name : Shape → String
  | ring => "ring"
  | grid => "grid"

/-- The shape with the given name, spelled exactly. -/
def ofName? : String → Option Shape
  | "ring" => some ring
  | "grid" => some grid
  | _ => none

/-- The number of vertices. -/
def vertexCount (shape : Shape) (size : Nat) : Nat :=
  match shape with
  | ring => size
  | grid => size * size

/-- The edges that lead from a vertex of a grid to the right and down. -/
def gridEdgesFrom (size row column : Nat) : List (Nat × Nat) :=
  let v := row * size + column
  (if column + 1 < size then [(v, v + 1)] else []) ++ if row + 1 < size then [(v, v + size)] else []

/-- The edges. A ring of one vertex has none. -/
def edges (shape : Shape) (size : Nat) : List (Nat × Nat) :=
  match shape with
  | ring => if 1 < size then (List.range size).map fun v => (v, (v + 1) % size) else []
  | grid =>
    (List.range size).flatMap fun row => (List.range size).flatMap fun column =>
      gridEdgesFrom size row column

example : ring.edges 3 = [(0, 1), (1, 2), (2, 0)] := by decide
example : grid.edges 2 = [(0, 1), (0, 2), (1, 3), (2, 3)] := by decide

end Shape

end VertexPrograms
