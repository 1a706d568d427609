/-!
# Priorities

A priority is a double, kept by its bits and ordered by the IEEE total order: negative NaNs first,
then the numbers from negative to positive infinity with `-0` below `+0`, then the positive NaNs.
Two priorities are equal when their bits are.
-/

namespace VertexPrograms

/-- The urgency of a task, as the bits of a double. -/
structure Priority where
  /-- Sign, exponent and fraction of the double. -/
  bits : UInt64
  deriving DecidableEq, Repr, Inhabited

namespace Priority

/-- The priority of a double. -/
def ofFloat (x : Float) : Priority := ⟨x.toBits⟩

/-- The priority `+0`. -/
def zero : Priority := ⟨0⟩

/-- The place of a priority in the total order. With the sign bit clear, larger bits are larger
numbers, and all of them lie above those with the sign bit set, among which larger bits are smaller
numbers. -/
def rank (p : Priority) : Nat :=
  if p.bits.toNat < 0x8000000000000000 then 0x8000000000000000 + p.bits.toNat
  else 0xffffffffffffffff - p.bits.toNat

instance : Ord Priority := ⟨fun p q => compare p.rank q.rank⟩

instance : LE Priority := ⟨fun p q => p.rank ≤ q.rank⟩

instance : LT Priority := ⟨fun p q => p.rank < q.rank⟩

instance (p q : Priority) : Decidable (p ≤ q) := inferInstanceAs (Decidable (p.rank ≤ q.rank))

instance (p q : Priority) : Decidable (p < q) := inferInstanceAs (Decidable (p.rank < q.rank))

/-- The larger of two priorities. -/
def max (p q : Priority) : Priority := if p < q then q else p

/-- The order is antisymmetric: priorities of equal rank have equal bits. -/
theorem rank_injective {p q : Priority} (h : p.rank = q.rank) : p = q := by
  obtain ⟨a⟩ := p
  obtain ⟨b⟩ := q
  have ha := a.toNat_lt
  have hb := b.toNat_lt
  simp only [rank] at h
  have : a.toNat = b.toNat := by split at h <;> split at h <;> omega
  rw [UInt64.toNat.inj this]

end Priority

end VertexPrograms
