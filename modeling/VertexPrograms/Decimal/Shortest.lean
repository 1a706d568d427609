import VertexPrograms.Decimal.Nearest

/-!
# The shortest decimal of a double

Of the decimals that read back as a given double, the one with the fewest significant digits, and of
those with equally few the nearest.
-/

namespace VertexPrograms.Decimal

/-- A finite double without its sign, as `significand · 2 ^ unit`. -/
structure Binary where
  significand : Nat
  unit : Int

/-- The parts of a double, unless it is infinite or no number. -/
def Binary.ofBits? (bits : UInt64) : Option Binary :=
  let field : Nat := bits.toNat / fractions % 2048
  let fraction : Nat := bits.toNat % fractions
  if field = 2047 then none
  else if field = 0 then some ⟨fraction, -1074⟩
  else some ⟨fractions + fraction, (field : Int) - 1075⟩

/-- `factor · 10 ^ exponent` in units of `2 ^ unit / 4`, as a quotient. -/
def Binary.quarters (b : Binary) (factor : Nat) (exponent : Int) : Nat × Nat :=
  (4 * factor * power 10 exponent * power 2 (-b.unit), power 10 (-exponent) * power 2 b.unit)

/-- Whether `factor · 10 ^ exponent` reads back as the double: it lies less than half a unit above
or below, or exactly half a unit if the significand is even; below a power of two the units are half
as large. -/
def Binary.readsBack (b : Binary) (factor : Nat) (exponent : Int) : Bool :=
  let (num, den) := b.quarters factor exponent
  let below := if b.significand = fractions ∧ b.unit > -1074 then 1 else 2
  let low := (4 * b.significand - below) * den
  let high := (4 * b.significand + 2) * den
  if b.significand % 2 = 0 then low ≤ num && num ≤ high else low < num && num < high

/-- The multiple of `10 ^ exponent` at or below the double. -/
def Binary.floorAt (b : Binary) (exponent : Int) : Nat :=
  b.significand * power 2 b.unit * power 10 (-exponent) / (power 2 (-b.unit) * power 10 exponent)

/-- Of the two multiples of `10 ^ exponent` around the double, the nearest that reads back. -/
def Binary.hit? (b : Binary) (exponent : Int) : Option Nat :=
  let low := b.floorAt exponent
  match b.readsBack low exponent, b.readsBack (low + 1) exponent with
  | true, true =>
    let (middle, den) := b.quarters (2 * low + 1) exponent
    some (if 8 * b.significand * den ≤ middle then low else low + 1)
  | true, false => some low
  | false, true => some (low + 1)
  | false, false => none

/-- Tries finer and finer grids, `steps` of them. -/
def Binary.search (b : Binary) : Nat → Int → Nat × Int
  | 0, exponent => (b.floorAt exponent, exponent)
  | steps + 1, exponent =>
    match b.hit? exponent with
    | some factor => (factor, exponent)
    | none => b.search steps (exponent - 1)

/-- The shortest decimal `factor · 10 ^ exponent` of a finite double without its sign. -/
def shortest (b : Binary) : Nat × Int :=
  if b.significand = 0 then (0, 0) else b.search 400 (digitCount (b.floorAt 0))

example : (Binary.ofBits? 0x3fb999999999999a).map shortest = some (1, -1) := by decide +kernel
example : (Binary.ofBits? 1).map shortest = some (5, -324) := by decide +kernel

end VertexPrograms.Decimal
