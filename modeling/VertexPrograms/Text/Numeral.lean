/-!
# Decimal numerals

Reading of decimal numerals: a run of ASCII digits, with the signs a caller admits. Nothing is read
past a bound, and a text that is not a numeral as a whole is refused.
-/

namespace VertexPrograms.Text

/-- The number written by ASCII digits, most significant first, continuing from `high`. -/
def digitsValue (high : Nat) (cs : List Char) : Nat :=
  cs.foldl (fun n c => 10 * n + (c.toNat - '0'.toNat)) high

/-- Reads a text that consists of ASCII digits, at least one. -/
def readDigits? (cs : List Char) : Option Nat :=
  if cs.isEmpty || !cs.all Char.isDigit then none else some (digitsValue 0 cs)

/-- Reads a natural number: digits behind at most one plus sign. -/
def readNat? : List Char → Option Nat
  | '+' :: cs => readDigits? cs
  | cs => readDigits? cs

/-- Reads an integer: digits behind at most one sign. -/
def readInt? : List Char → Option Int
  | '-' :: cs => (readDigits? cs).map fun n => -(n : Int)
  | cs => (readNat? cs).map Int.ofNat

/-- Reads a natural number that fits in 64 bits. -/
def readWord? (cs : List Char) : Option Nat := (readNat? cs).filter (· < 0x10000000000000000)

example : readWord? "+007".toList = some 7 := by decide
example : readWord? "-0".toList = none := by decide
example : readWord? "+".toList = none := by decide

end VertexPrograms.Text
