import VertexPrograms.Toml.Scalar
import VertexPrograms.Toml.Table

/-!
# TOML documents

A document is a sequence of lines: assignments `key = value`, and headers of tables. Nesting of
values, and the parts of a key, stay below a limit of 80.
-/

namespace VertexPrograms.Toml

/-- No value lies in this many others, and no key has this many parts. -/
def depthLimit : Nat := 80

/-- The characters of a key without quotes. -/
def isKeyChar (c : Char) : Bool := c.isAlphanum || c == '_' || c == '-'

/-- Reads one part of a key. -/
def readKeyPart : Reader String
  | '\x22' :: cs => (Quotation.basic.readLine cs).map fun (text, rest) => (String.ofList text, rest)
  | '\x27' :: cs =>
    (Quotation.literal.readLine cs).map fun (text, rest) => (String.ofList text, rest)
  | cs =>
    let text := cs.takeWhile isKeyChar
    if text.isEmpty then none else some (String.ofList text, cs.dropWhile isKeyChar)

/-- Reads the parts of a key, with points and blanks between them; at most `bound` parts. -/
def readKeyParts : Nat → Reader (List String)
  | 0, _ => none
  | bound + 1, cs => do
    let (part, cs) ← readKeyPart (skipBlanks cs)
    match skipBlanks cs with
    | '.' :: cs =>
      let (parts, cs) ← readKeyParts bound cs
      return (part :: parts, cs)
    | cs => return ([part], cs)

/-- Reads a key: its last part, and the path of parts before it. -/
def readKey (cs : List Char) : Option ((List String × String) × List Char) := do
  let (parts, cs) ← readKeyParts (depthLimit - 1) cs
  let key ← parts.getLast?
  return ((parts.dropLast, key), cs)

/-- Reads an assignment, up to the end of its value. -/
def readAssignment (value : Reader Item) (cs : List Char) : Option (Assignment × List Char) := do
  let ((path, key), cs) ← readKey cs
  let (item, cs) ← value (skipBlanks (← take? '=' cs))
  return (⟨path, key, item⟩, cs)

/-- Reads the rest of an array, in at most `bound` steps. -/
def readItems (value : Reader Item) : Nat → Reader (List Item)
  | 0, _ => none
  | bound + 1, cs => do
    match ← skipLayout false cs with
    | ']' :: cs => return ([], cs)
    | cs =>
      let (item, cs) ← value cs
      match ← skipLayout false cs with
      | ',' :: cs =>
        let (items, cs) ← readItems value bound cs
        return (item :: items, cs)
      | ']' :: cs => return ([item], cs)
      | _ => none

/-- Reads the rest of a table in braces that has an assignment, in at most `bound` steps. -/
def readAssignments (value : Reader Item) : Nat → Reader (List Assignment)
  | 0, _ => none
  | bound + 1, cs => do
    let (assignment, cs) ← readAssignment value cs
    match skipBlanks cs with
    | ',' :: cs =>
      let (assignments, cs) ← readAssignments value bound cs
      return (assignment :: assignments, cs)
    | '}' :: cs => return ([assignment], cs)
    | _ => none

/-- Reads a table in braces, from behind the first brace. -/
def readInline (value : Reader Item) (cs : List Char) : Option (Item × List Char) :=
  match skipBlanks cs with
  | '}' :: cs => some (.table .inline [], cs)
  | cs => do
    let (assignments, cs) ← readAssignments value (cs.length + 1) cs
    let table ← Table.defineAll { origin := .inline } assignments
    return (table.toItem, cs)

/-- Reads a value that contains values nested at most `depth` deep. -/
def readValue : Nat → Reader Item
  | depth, cs =>
    match cs with
    | '\x22' :: cs =>
      (Quotation.basic.read cs).map fun (text, rest) => (.string (String.ofList text), rest)
    | '\x27' :: cs =>
      (Quotation.literal.read cs).map fun (text, rest) => (.string (String.ofList text), rest)
    | '[' :: cs =>
      match depth with
      | 0 => none
      | depth + 1 =>
        (readItems (readValue depth) (cs.length + 1) cs).map fun (items, cs) => (.array items, cs)
    | '{' :: cs =>
      match depth with
      | 0 => none
      | depth + 1 => readInline (readValue depth) cs
    | cs => readScalar cs

/-- Reads a header, from behind its first bracket. -/
def readHeader : Reader Header
  | '[' :: cs => do
    let ((path, key), cs) ← readKey cs
    return (.element path key, ← take? ']' (← take? ']' cs))
  | cs => do
    let ((path, key), cs) ← readKey cs
    return (.table path key, ← take? ']' cs)

/-- The sections of a document, and the assignments before them. -/
abbrev Outline := List Assignment × List Section

/-- Reads the lines of a document, at most `bound` of them. -/
def readOutline : Nat → List Char → Option Outline
  | 0, _ => none
  | bound + 1, cs => do
    match ← skipLayout false cs with
    | [] => return ([], [])
    | '[' :: cs =>
      let (header, cs) ← readHeader cs
      let (body, sections) ← readOutline bound (← finishLine false cs)
      return ([], ⟨header, body⟩ :: sections)
    | cs =>
      let (assignment, cs) ← readAssignment (readValue (depthLimit - 1)) cs
      let (body, sections) ← readOutline bound (← finishLine false cs)
      return (assignment :: body, sections)

/-- Drops the mark of the byte order that may stand at the start. -/
def dropByteOrderMark : List Char → List Char
  | '\uFEFF' :: cs => cs
  | cs => cs

/-- The entries of a document, if it is one. -/
def parse? (text : String) : Option (List (String × Item)) := do
  let cs := dropByteOrderMark text.toList
  let (assignments, sections) ← readOutline (cs.length + 1) cs
  let root ← Table.defineAll { origin := .header } assignments
  let table ← sections.foldlM Table.addSection root
  return table.entries

end VertexPrograms.Toml
