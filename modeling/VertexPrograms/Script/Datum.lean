import VertexPrograms.VertexId

/-!
# Data that scripts compute with

A script works on whatever data the vertices carry, as long as it can be added, compared, and made
from an identifier or from the integer on an edge.
-/

namespace VertexPrograms

/-- Vertex data for scripts. -/
class Datum (V : Type) where
  zero : V
  add : V → V → V
  /-- Whether the first is smaller. -/
  below : V → V → Bool
  ofId : VertexId → V
  ofEdge : Int64 → V
  toFloat : V → Float

namespace Datum

/-- Integers of 64 bits, which wrap around. -/
instance : Datum Int64 where
  zero := 0
  add a b := a + b
  below a b := decide (a < b)
  ofId id := Int64.ofNat id.toNat
  ofEdge n := n
  toFloat n := n.toFloat

/-- Doubles. -/
instance : Datum Float where
  zero := 0.0
  add a b := a + b
  below a b := decide (a < b)
  ofId id := id.toFloat
  ofEdge n := n.toFloat
  toFloat x := x

/-- Labels of 32 bits, which wrap around. -/
instance : Datum UInt32 where
  zero := 0
  add a b := a + b
  below a b := decide (a < b)
  ofId id := id
  ofEdge n := n.toUInt64.toUInt32
  toFloat n := n.toFloat

end Datum

end VertexPrograms
