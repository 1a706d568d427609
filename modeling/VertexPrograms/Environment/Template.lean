import VertexPrograms.Environment.Basic
import VertexPrograms.Text.Alphanumeric

/-!
# Templates of values

The value of a variable in a file of variables, which may name other variables behind a dollar sign,
in braces or without. Text in single quotes is taken as it is; in double quotes, and outside of
quotes, a backslash stands before a character that is meant as such. Outside of quotes a blank ends
the value, and only a comment may follow.
-/

namespace VertexPrograms.Environment

/-- A part of a value. -/
inductive Piece where
  | text (c : Char)
  /-- The value of a variable; nothing if there is none. -/
  | variable (name : String)
  deriving DecidableEq, Repr

/-- A value that may depend on variables. -/
abbrev Template := List Piece

/-- The text of a template. -/
def expand (env : Environment) (template : Template) : String :=
  String.join <| template.map fun
    | .text c => String.singleton c
    | .variable name => (env.valueOf? name).getD ""

/-- The variables a template names. -/
def Template.names (template : Template) : List String :=
  template.filterMap fun
    | .text _ => none
    | .variable name => some name

/-- Where a reader of a value stands. -/
inductive Template.Place where
  /-- In text, which is in double quotes or outside of quotes. -/
  | text (quoted : Bool)
  /-- In single quotes. -/
  | literal
  /-- Behind a backslash. -/
  | escape (quoted : Bool)
  /-- In a name without braces, of letters and numbers; its characters so far, in reverse. -/
  | name (quoted : Bool) (read : List Char)
  /-- In a name in braces; its characters so far, in reverse. -/
  | braced (quoted : Bool) (read : List Char)
  /-- Behind the end of the value. -/
  | after

/-- The character an escape stands for. -/
def Template.escape? : Char → Option Char
  | 'n' => some '\n'
  | c => if c ∈ ['\\', '\x27', '\x22', '$', ' '] then some c else none

/-- The variable whose name has been read in reverse. -/
def Template.named (read : List Char) : Piece := .variable (String.ofList read.reverse)

/-- Reads a value to its end. The character that ends a name without braces is text, even if it is a
quote; a dollar sign begins the next name. -/
def Template.read : Template.Place → List Char → Option Template
  | .text quoted, [] | .escape quoted, [] => if quoted then none else some []
  | .name quoted read, [] => if quoted then none else some [named read]
  | .literal, [] | .braced _ _, [] => none
  | .after, [] => some []
  | .text quoted, c :: cs =>
    if c = '$' then Template.read (.name quoted []) cs
    else if c = '\\' then Template.read (.escape quoted) cs
    else if c = '\x22' then Template.read (.text !quoted) cs
    else if quoted then (Template.read (.text true) cs).map (.text c :: ·)
    else if c = '\x27' then Template.read .literal cs
    else if c = ' ' ∨ c = '\t' then Template.read .after cs
    else (Template.read (.text false) cs).map (.text c :: ·)
  | .literal, c :: cs =>
    if c = '\x27' then Template.read (.text false) cs
    else (Template.read .literal cs).map (.text c :: ·)
  | .escape quoted, c :: cs =>
    match escape? c with
    | none => none
    | some d => (Template.read (.text quoted) cs).map (.text d :: ·)
  | .name quoted read, c :: cs =>
    if Text.isAlphanumeric c then Template.read (.name quoted (c :: read)) cs
    else if c = '{' ∧ read = [] then Template.read (.braced quoted []) cs
    else if c = '$' then (Template.read (.name quoted []) cs).map (named read :: ·)
    else (Template.read (.text quoted) cs).map fun rest => named read :: .text c :: rest
  | .braced quoted read, c :: cs =>
    if c = '}' then (Template.read (.text quoted) cs).map (named read :: ·)
    else Template.read (.braced quoted (c :: read)) cs
  | .after, c :: cs =>
    if c = ' ' ∨ c = '\t' then Template.read .after cs else if c = '#' then some [] else none

/-- The template of a value. -/
def Template.parse? (cs : List Char) : Option Template := Template.read (.text false) cs

example : Template.parse? "a${X}".toList = some [.text 'a', .variable "X"] := by decide +kernel
example : Template.parse? "a b".toList = none := by decide +kernel

end VertexPrograms.Environment
