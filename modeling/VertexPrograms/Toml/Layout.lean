/-!
# Blanks, comments and lines of a TOML document

Within a line, spaces and tabs separate; a line ends with a line feed, behind an optional carriage
return; a comment reaches from a number sign to the end of its line.
-/

namespace VertexPrograms.Toml

/-- The blanks within a line. -/
def isBlank (c : Char) : Bool := c == ' ' || c == '\t'

/-- The characters a comment or a string may hold as themselves: all but controls, and the tab. -/
def isPlain (c : Char) : Bool := c == '\t' || (0x20 ≤ c.toNat && c.toNat != 0x7F)

/-- Skips blanks within the line. -/
def skipBlanks (cs : List Char) : List Char := cs.dropWhile isBlank

/-- Takes the end of a line off the front of a text. -/
def takeLineEnd? : List Char → Option (List Char)
  | '\n' :: cs => some cs
  | '\r' :: '\n' :: cs => some cs
  | _ => none

/-- Skips blanks and line ends. -/
def skipBlankLines : List Char → List Char
  | '\n' :: cs => skipBlankLines cs
  | '\r' :: '\n' :: cs => skipBlankLines cs
  | c :: cs => if isBlank c then skipBlankLines cs else c :: cs
  | [] => []

/-- Skips blanks, line ends and comments; `comment` tells that a comment has begun. -/
def skipLayout (comment : Bool) : List Char → Option (List Char)
  | '\n' :: cs => skipLayout false cs
  | '\r' :: '\n' :: cs => skipLayout false cs
  | c :: cs =>
    if comment then if isPlain c then skipLayout true cs else none
    else if c == '#' then skipLayout true cs
    else if isBlank c then skipLayout false cs
    else some (c :: cs)
  | [] => some []

/-- Skips what may follow on a line, and the line's end; `comment` tells that a comment has begun.
-/
def finishLine (comment : Bool) : List Char → Option (List Char)
  | '\n' :: cs => some cs
  | '\r' :: '\n' :: cs => some cs
  | c :: cs =>
    if comment then if isPlain c then finishLine true cs else none
    else if c == '#' then finishLine true cs
    else if isBlank c then finishLine false cs
    else none
  | [] => some []

/-- Skipping makes no text longer. -/
theorem length_skipBlanks_le (cs : List Char) : (skipBlanks cs).length ≤ cs.length :=
  (List.dropWhile_suffix isBlank).length_le

/-- Skipping makes no text longer. -/
theorem length_skipBlankLines_le (cs : List Char) : (skipBlankLines cs).length ≤ cs.length := by
  fun_induction skipBlankLines cs <;> grind

end VertexPrograms.Toml
