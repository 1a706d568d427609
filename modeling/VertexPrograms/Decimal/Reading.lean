import VertexPrograms.Decimal.Nearest
import VertexPrograms.Text.Numeral

/-!
# Reading a real number

A number is written as digits with at most one point among or beside them and an optional power of
ten, or as one of the words for infinity and for no number; a sign may stand in front.
-/

namespace VertexPrograms.Decimal

/-- The digits at the start of a text, and the rest. -/
def splitDigits (cs : List Char) : List Char × List Char :=
  (cs.takeWhile Char.isDigit, cs.dropWhile Char.isDigit)

/-- Reads the power of ten that may follow the digits. -/
def readPower? : List Char → Option Int
  | [] => some 0
  | c :: cs => if c = 'e' ∨ c = 'E' then Text.readInt? cs else none

/-- Reads a number without its sign as `mantissa · 10 ^ exponent`. -/
def readUnsigned? (cs : List Char) : Option (Nat × Int) :=
  let (whole, rest) := splitDigits cs
  let (places, rest) :=
    match rest with
    | '.' :: rest => splitDigits rest
    | _ => ([], rest)
  if whole.isEmpty && places.isEmpty then none
  else
    (readPower? rest).map fun power =>
      (Text.digitsValue 0 (whole ++ places), power - (places.length : Int))

/-- Reads the magnitude of a number, or one of the words that stand for none. -/
def readMagnitude? (negative : Bool) (cs : List Char) : Option Float :=
  match String.ofList (cs.map Char.toLower) with
  | "inf" | "infinity" =>
    some (Float.ofBits (if negative then 0xfff0000000000000 else 0x7ff0000000000000))
  | "nan" => some (Float.ofBits 0x7ff8000000000000)
  | _ => (readUnsigned? cs).map fun (mantissa, exponent) => nearest negative mantissa exponent

/-- Reads a double from its decimal text. -/
def read? : List Char → Option Float
  | '-' :: cs => readMagnitude? true cs
  | '+' :: cs => readMagnitude? false cs
  | cs => readMagnitude? false cs

example : readUnsigned? "12.50e-3".toList = some (1250, -5) := by decide
example : readUnsigned? ".".toList = none := by decide

end VertexPrograms.Decimal
