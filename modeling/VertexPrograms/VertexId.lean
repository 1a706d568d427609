/-!
# Vertex identifiers

A vertex is known outside the store by a 32-bit identifier of the caller's choice, and inside it by
the position at which it was inserted.
-/

namespace VertexPrograms

/-- The caller's name for a vertex. -/
abbrev VertexId := UInt32

/-- Identifiers are compared as numbers. -/
instance : EquivBEq VertexId := inferInstance

/-- Equal identifiers have equal hashes. -/
instance : LawfulHashable VertexId := inferInstance

/-- The position of a vertex in insertion order. -/
abbrev VertexIndex := Nat

/-- The position of an edge in insertion order. -/
abbrev EdgeIndex := Nat

/-- The identifier a signed 64-bit number stands for, if it is in range. -/
def VertexId.ofRaw? (raw : Int) : Option VertexId :=
  if 0 ≤ raw ∧ raw < 0x100000000 then some (UInt32.ofNat raw.toNat) else none

end VertexPrograms
