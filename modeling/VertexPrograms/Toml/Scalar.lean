import VertexPrograms.Decimal.Nearest
import VertexPrograms.Text.Numeral
import VertexPrograms.Toml.Quoted

/-!
# Numbers, truth values, dates and times of a TOML document

These are words: runs of the characters that such a value can hold. What a word means is told from
the word as a whole. Only a date and a time of day behind it may be two words, with one space
between them.
-/

namespace VertexPrograms.Toml

/-- The characters of words. -/
def isWordChar (c : Char) : Bool :=
  c.isAlphanum || c == '+' || c == '-' || c == '_' || c == '.' || c == ':'

/-- The digits of a numeral. Single underscores may stand between digits. -/
def groupedDigits? (isDigit : Char → Bool) : List Char → Option (List Char)
  | [] => none
  | c :: cs =>
    if isDigit c then
      match cs with
      | [] => some [c]
      | '_' :: cs => (groupedDigits? isDigit cs).map (c :: ·)
      | cs => (groupedDigits? isDigit cs).map (c :: ·)
    else none

/-- The digits of a decimal whole number, which begin with a zero only if there is no other digit.
-/
def wholeDigits? (cs : List Char) : Option (List Char) :=
  match groupedDigits? Char.isDigit cs with
  | some ('0' :: _ :: _) => none
  | digits? => digits?

/-- Splits a sign off a text; the flag tells a minus. -/
def splitSign : List Char → Bool × List Char
  | '-' :: cs => (true, cs)
  | '+' :: cs => (false, cs)
  | cs => (false, cs)

/-- Reads a whole number in the given base. -/
def readBased? (base : Nat) (cs : List Char) : Option Nat :=
  let isDigit c := (hexValue? c).any (· < base)
  (groupedDigits? isDigit cs).map fun digits =>
    digits.foldl (fun n c => base * n + (hexValue? c).getD 0) 0

/-- Reads a whole number: with a sign in base ten, or without one behind the mark of another base.
-/
def readWhole? : List Char → Option Int
  | '0' :: 'x' :: cs => (readBased? 16 cs).map Int.ofNat
  | '0' :: 'o' :: cs => (readBased? 8 cs).map Int.ofNat
  | '0' :: 'b' :: cs => (readBased? 2 cs).map Int.ofNat
  | cs =>
    let (negative, cs) := splitSign cs
    (wholeDigits? cs).map fun digits =>
      let n : Int := Text.digitsValue 0 digits
      if negative then -n else n

/-- Reads an integer of 64 bits. -/
def readInteger? (cs : List Char) : Option Int :=
  (readWhole? cs).filter fun n => -0x8000000000000000 ≤ n ∧ n < 0x8000000000000000

/-- Whether a character begins the power of ten behind a number. -/
def isPower (c : Char) : Bool := c == 'e' || c == 'E'

/-- Reads the digits of a number with decimal places, a power of ten or both, and its power of ten,
without the sign. -/
def readFraction? (cs : List Char) : Option (Nat × Int) := do
  guard (cs.any fun c => c == '.' || isPower c)
  let plain := cs.takeWhile fun c => !isPower c
  let power ←
    match cs.dropWhile fun c => !isPower c with
    | [] => some 0
    | _ :: cs =>
      let (negative, cs) := splitSign cs
      (groupedDigits? Char.isDigit cs).map fun digits =>
        let n : Int := Text.digitsValue 0 digits
        if negative then -n else n
  let whole ← wholeDigits? (plain.takeWhile (· != '.'))
  let places ←
    match plain.dropWhile (· != '.') with
    | [] => some []
    | _ :: cs => groupedDigits? Char.isDigit cs
  return (Text.digitsValue 0 (whole ++ places), power - (places.length : Int))

/-- Reads a number that is not whole. One too large for a double is refused, but not one too small.
-/
def readFloat? (cs : List Char) : Option Float :=
  let (negative, cs) := splitSign cs
  match String.ofList cs with
  | "inf" => some (Float.ofBits (if negative then 0xfff0000000000000 else 0x7ff0000000000000))
  | "nan" => some (Float.ofBits (if negative then 0xfff8000000000000 else 0x7ff8000000000000))
  | _ =>
    match readFraction? cs with
    | none => none
    | some (mantissa, exponent) =>
      if !negative && Decimal.nearestBits mantissa exponent = Decimal.infinityBits then none
      else some (Decimal.nearest negative mantissa exponent)

/-! # Dates and times -/

/-- Reads a number of exactly two digits within bounds. -/
def readTwo? (low high : Nat) : Reader Nat
  | a :: b :: cs =>
    match Text.readDigits? [a, b] with
    | some n => if low ≤ n ∧ n ≤ high then some (n, cs) else none
    | none => none
  | _ => none

/-- Takes one character off the front of a text. -/
def take? (c : Char) : List Char → Option (List Char)
  | d :: cs => if c = d then some cs else none
  | [] => none

/-- The number of days of a month. -/
def daysIn (year month : Nat) : Nat :=
  match month with
  | 2 => if year % 4 = 0 ∧ (year % 100 ≠ 0 ∨ year % 400 = 0) then 29 else 28
  | 4 | 6 | 9 | 11 => 30
  | _ => 31

/-- Takes a date off the front of a text. -/
def takeDate? (cs : List Char) : Option (List Char) := do
  let year ← if (cs.take 4).length = 4 then Text.readDigits? (cs.take 4) else none
  let (month, cs) ← readTwo? 1 12 (← take? '-' (cs.drop 4))
  let (_, cs) ← readTwo? 1 (daysIn year month) (← take? '-' cs)
  return cs

/-- Takes a time of day off the front of a text; its seconds may have decimal places. -/
def takeTime? (cs : List Char) : Option (List Char) := do
  let (_, cs) ← readTwo? 0 23 cs
  let (_, cs) ← readTwo? 0 59 (← take? ':' cs)
  let (_, cs) ← readTwo? 0 60 (← take? ':' cs)
  match cs with
  | '.' :: c :: rest => if c.isDigit then some (rest.dropWhile Char.isDigit) else some cs
  | _ => some cs

/-- Whether a word is a distance from universal time, or nothing. -/
def isOffset : List Char → Bool
  | [] | ['Z'] | ['z'] => true
  | c :: cs =>
    (c == '+' || c == '-') &&
      (do
        let (_, cs) ← readTwo? 0 23 cs
        let (_, cs) ← readTwo? 0 59 (← take? ':' cs)
        return cs.isEmpty).getD false

/-- Whether a word is the time of day that may follow a date. -/
def isDayTime (cs : List Char) : Bool := (takeTime? cs).any isOffset

/-- Whether a word is a date alone. -/
def isDate (cs : List Char) : Bool := (takeDate? cs).any List.isEmpty

/-- Whether a word is a date, a time of day, or both. -/
def isMoment (cs : List Char) : Bool :=
  match takeDate? cs with
  | some [] => true
  | some (c :: rest) => (c == 'T' || c == 't') && isDayTime rest
  | none => (takeTime? cs).any List.isEmpty

/-! # Words -/

/-- What a word means. -/
def ofWord? (word : List Char) : Option Item :=
  match String.ofList word with
  | "true" => some (.boolean true)
  | "false" => some (.boolean false)
  | text =>
    if isMoment word then some (.moment text)
    else
      match readInteger? word with
      | some n => some (.integer n)
      | none => (readFloat? word).map .float

/-- Reads a word, or a date and the time of day behind it. -/
def readScalar (cs : List Char) : Option (Item × List Char) :=
  let word := cs.takeWhile isWordChar
  let rest := cs.dropWhile isWordChar
  let single := (ofWord? word).map fun item => (item, rest)
  match rest with
  | ' ' :: rest =>
    let time := rest.takeWhile isWordChar
    if isDate word && isDayTime time then
      some (.moment (String.ofList (word ++ ' ' :: time)), rest.dropWhile isWordChar)
    else single
  | _ => single

example : readInteger? "-1_000".toList = some (-1000) := by decide
example : readInteger? "0x1F".toList = some 31 := by decide +kernel
example : readInteger? "01".toList = none := by decide +kernel
example : readFraction? "1_0.5e-2".toList = some (105, -3) := by decide +kernel
example : readFraction? "9223372036854775808".toList = none := by decide +kernel
example : isMoment "2024-02-29T23:59:60.25+01:00".toList = true := by decide +kernel
example : isMoment "2023-02-29".toList = false := by decide +kernel

end VertexPrograms.Toml
