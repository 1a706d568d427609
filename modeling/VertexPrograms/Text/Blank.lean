/-!
# Blank characters

The characters Unicode calls white space, and what is done with them: cutting them off the ends of a
text, and splitting a text into words. Texts are lists of characters here, so that each operation is
a recursion a reader can follow.
-/

namespace VertexPrograms.Text

/-- The characters with the Unicode property `White_Space`. -/
def isBlank (c : Char) : Bool :=
  let n := c.toNat
  (9 ≤ n && n ≤ 13) || n == 0x20 || n == 0x85 || n == 0xA0 || n == 0x1680 ||
    (0x2000 ≤ n && n ≤ 0x200A) || n == 0x2028 || n == 0x2029 || n == 0x202F || n == 0x205F ||
    n == 0x3000

/-- Drops the blanks at the end. -/
def trimEnd (cs : List Char) : List Char := (cs.reverse.dropWhile isBlank).reverse

/-- Drops the blanks at both ends. -/
def trim (cs : List Char) : List Char := trimEnd (cs.dropWhile isBlank)

/-- Puts the word being read, kept in reverse, in front of the words after it, unless it is empty.
-/
def flush (current : List Char) (rest : List (List Char)) : List (List Char) :=
  match current with
  | [] => rest
  | _ :: _ => current.reverse :: rest

/-- The words of a text: its maximal runs without a blank. -/
def words (cs : List Char) : List (List Char) := go [] cs
where
  /-- Continues with `current`, the part of a word already read, in reverse. -/
  go (current : List Char) : List Char → List (List Char)
    | [] => flush current []
    | c :: cs => if isBlank c then flush current (go [] cs) else go (c :: current) cs

/-- Trims a text and writes its ASCII capitals small: names are compared in this form. -/
def normalize (s : String) : String := String.ofList ((trim s.toList).map Char.toLower)

example : words "  a\tbc \u3000d".toList = [['a'], ['b', 'c'], ['d']] := by decide

end VertexPrograms.Text
