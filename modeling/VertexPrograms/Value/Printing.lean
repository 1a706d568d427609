import VertexPrograms.Decimal.Shortest
import VertexPrograms.Value.Json

/-!
# Printing of documents

A document is laid out with one item or field on a line, indented by two blanks for each level; an
array or an object without any is a pair of brackets. A double is written by its shortest decimal,
which always has a point or a power of ten.
-/

namespace VertexPrograms.Json

/-- A hexadecimal digit. -/
def hexDigit (n : Nat) : Char := (Nat.digitChar n)

/-- A character within quotation marks. Controls are written as escapes, the usual ones by a letter.
-/
def escape (c : Char) : List Char :=
  match c with
  | '\x22' => ['\\', '\x22']
  | '\\' => ['\\', '\\']
  | '\x08' => ['\\', 'b']
  | '\x0c' => ['\\', 'f']
  | '\n' => ['\\', 'n']
  | '\r' => ['\\', 'r']
  | '\t' => ['\\', 't']
  | c =>
    if c.toNat < 0x20 then ['\\', 'u', '0', '0', hexDigit (c.toNat / 16), hexDigit (c.toNat % 16)]
      else [c]

/-- A text within quotation marks. -/
def quote (s : String) : String := String.ofList ('\x22' :: s.toList.flatMap escape ++ ['\x22'])

/-- The decimal `factor · 10 ^ exponent`. It has a power of ten if the point would stand behind more
than sixteen digits, or in front of more than four zeros and the factor. -/
def decimal (factor : Nat) (exponent : Int) : String :=
  let digits := Nat.toDigits 10 factor
  let zeros (n : Int) := List.replicate n.toNat '0'
  let point := digits.length + exponent
  let written : List Char :=
    if 0 ≤ exponent ∧ point ≤ 16 then digits ++ zeros exponent ++ ['.', '0']
    else if 0 < point ∧ point ≤ 16 then digits.take point.toNat ++ '.' :: digits.drop point.toNat
    else if -5 < point ∧ point ≤ 0 then '0' :: '.' :: zeros (-point) ++ digits
    else
      let fraction := if digits.length = 1 then [] else '.' :: digits.drop 1
      digits.take 1 ++ fraction ++ 'e' :: (toString (point - 1)).toList
  String.ofList written

/-- The text of a double, which is no number of a document if it is infinite or no number at all. -/
def realText (x : Float) : String :=
  match Decimal.Binary.ofBits? x.toBits with
  | none => "null"
  | some b =>
    let (factor, exponent) := Decimal.shortest b
    let sign := if x.toBits.toNat < Decimal.signBit then "" else "-"
    sign ++ decimal factor exponent

/-- The start of a new line at a level. -/
def newLine (level : Nat) : String := String.ofList ('\n' :: List.replicate (2 * level) ' ')

/-- Puts lines at a level within brackets; the brackets of nothing stand side by side. -/
def enclose (opening closing : String) (level : Nat) (lines : List String) : String :=
  if lines.isEmpty then opening ++ closing
  else
    opening ++ newLine (level + 1) ++ String.intercalate ("," ++ newLine (level + 1)) lines ++
      newLine level ++ closing

mutual

/-- The text of a document that stands at a level. -/
def print (level : Nat) : Json → String
  | null => "null"
  | bool b => if b then "true" else "false"
  | integer n => toString n
  | real x => realText x
  | string s => quote s
  | array items => enclose "[" "]" level (printItems (level + 1) items)
  | object fields => enclose "\x7b" "\x7d" level (printFields (level + 1) fields)

/-- The texts of items at a level. -/
def printItems (level : Nat) : List Json → List String
  | [] => []
  | item :: rest => print level item :: printItems level rest

/-- The texts of fields at a level. -/
def printFields (level : Nat) : List (String × Json) → List String
  | [] => []
  | (name, value) :: rest => (quote name ++ ": " ++ print level value) :: printFields level rest

end

example : [decimal 1 0, decimal 1 16, decimal 105 (-2), decimal 5 (-5), decimal 25 (-8)] =
    ["1.0", "1e16", "1.05", "0.00005", "2.5e-7"] := by decide +kernel

end VertexPrograms.Json
