/-!
# The double nearest to a decimal

A decimal `mantissa · 10 ^ exponent` is rounded to the nearest double, a tie going to the even
significand. All arithmetic is on natural numbers: the quotient is brought to a significand of 53
bits (fewer below the least normal number) and rounded once.
-/

namespace VertexPrograms.Decimal

/-- The quotient of two natural numbers rounded to the nearest, ties to even. -/
def roundQuotient (num den : Nat) : Nat :=
  let low := num / den
  let twice := 2 * (num % den)
  if twice < den || (twice == den && low % 2 == 0) then low else low + 1

/-- A power; an exponent below zero counts as zero. -/
def power (base : Nat) (exponent : Int) : Nat := Nat.pow base exponent.toNat

/-- The number of fractions a double can have, `2 ^ 52`. -/
def fractions : Nat := 0x10000000000000

/-- The sign bit of a double, as a number. -/
def signBit : Nat := 0x8000000000000000

/-- The bits of positive infinity. -/
def infinityBits : Nat := 0x7ff0000000000000

/-- The bits of the double nearest to the positive quotient `num / den`; infinity if it is too
large. -/
def nearestQuotientBits (num den : Nat) : Nat :=
  -- `2 ^ top ≤ num / den < 2 ^ (top + 1)`
  let guess : Int := (num.log2 : Int) - den.log2
  let reached := num * power 2 (-guess) ≥ den * power 2 guess
  let top := if reached then guess else guess - 1
  -- The weight of the last bit kept.
  let unit : Int := max (top - 52) (-1074)
  let significand := roundQuotient (num * power 2 (-unit)) (den * power 2 unit)
  -- A significand that rounds up to the next power of two carries into the exponent.
  min infinityBits ((unit + 1074).toNat * fractions + significand)

/-- The number of decimal digits of a natural number, at least one. -/
def digitCount (n : Nat) : Nat := (Nat.toDigits 10 n).length

/-- The bits of the double nearest to `mantissa · 10 ^ exponent`. Powers of ten that are certain to
end at infinity or at zero are not computed. -/
def nearestBits (mantissa : Nat) (exponent : Int) : Nat :=
  if mantissa = 0 then 0
  else
    let magnitude := exponent + digitCount mantissa
    if magnitude > 400 then infinityBits
    else if magnitude < -400 then 0
    else nearestQuotientBits (mantissa * power 10 exponent) (power 10 (-exponent))

/-- The double nearest to a signed decimal. -/
def nearest (negative : Bool) (mantissa : Nat) (exponent : Int) : Float :=
  let magnitude := nearestBits mantissa exponent
  Float.ofBits (UInt64.ofNat (if negative then signBit + magnitude else magnitude))

example : nearestBits 1 0 = 0x3ff0000000000000 := by decide +kernel
example : nearestBits 5 (-324) = 1 := by decide +kernel
example : nearestBits 17976931348623159 292 = infinityBits := by decide +kernel

end VertexPrograms.Decimal
