import VertexPrograms.Environment.Template
import VertexPrograms.Text.Blank

/-!
# Files of variables

A file defines variables, one on a line, as defaults: it changes none that is there already. A
quoted value may go on over several lines. Nothing is read behind the first line that is at fault.
-/

namespace VertexPrograms.Environment

/-- Where a reader of lines stands, which tells whether a line end ends a definition. -/
inductive LinePlace where
  | text
  /-- Behind the first of a run of blanks, where a comment may begin. -/
  | blank
  | escape
  /-- In single quotes. -/
  | literal
  | literalEscape
  /-- In double quotes. -/
  | quoted
  | quotedEscape
  deriving DecidableEq, Repr

/-- The place of a character that opens something outside of quotes. -/
def LinePlace.opening (c : Char) : LinePlace :=
  if c = '\\' then escape else if c = '\x22' then quoted else if c = '\x27' then literal else text

/-- The place behind a character; none if a comment begins with it. -/
def LinePlace.next : LinePlace → Char → Option LinePlace
  | text, c => some (if Text.isBlank c ∧ c ≠ '\n' ∧ c ≠ '\r' then blank else opening c)
  | blank, c => if c = '#' then none else some (opening c)
  | escape, _ => some text
  | literal, c => some (if c = '\\' then literalEscape else if c = '\x27' then text else literal)
  | literalEscape, _ => some literal
  | quoted, c => some (if c = '\\' then quotedEscape else if c = '\x22' then text else quoted)
  | quotedEscape, _ => some quoted

/-- Drops what is left of a line. -/
def dropLine : List Char → List Char
  | [] => []
  | c :: cs => if c = '\n' then cs else dropLine cs

/-- Takes a definition, which may go on over several lines, off the front of a text. The text must
not end within quotes, behind a backslash or behind a blank. -/
def takeDefinition (place : LinePlace) : List Char → Option (List Char × List Char)
  | [] => if place = .text then some ([], []) else none
  | c :: cs =>
    match place.next c with
    | none => some ([], dropLine cs)
    | some place =>
      if c = '\n' ∧ place = .text then some ([], cs)
      else (takeDefinition place cs).map fun (line, rest) => (c :: line, rest)

/-- Dropping a line makes the text no longer. -/
theorem length_dropLine_le (cs : List Char) : (dropLine cs).length ≤ cs.length := by
  fun_induction dropLine cs <;> grind

/-- Taking a definition makes the text shorter, unless it is empty. -/
theorem length_takeDefinition_le {place : LinePlace} {cs line rest : List Char}
    (h : takeDefinition place cs = some (line, rest)) : rest.length ≤ cs.length - 1 := by
  induction cs generalizing place line with
  | nil => grind [takeDefinition]
  | cons c cs ih =>
    simp only [takeDefinition] at h
    split at h
    · cases h
      exact length_dropLine_le cs
    · split at h
      · cases h
        exact Nat.le_refl _
      · obtain ⟨⟨line, rest'⟩, htail, heq⟩ := Option.map_eq_some_iff.mp h
        cases heq
        have := ih htail
        simp only [List.length_cons]
        exact Nat.le_trans this (Nat.sub_le _ _)

/-- Whether a text has nothing on it but a comment. -/
def isVacant (cs : List Char) : Bool :=
  match cs.dropWhile Text.isBlank with
  | [] => true
  | c :: _ => c == '#'

/-- Reads the name of a variable. -/
def readName? : List Char → Option (List Char × List Char)
  | [] => none
  | c :: cs =>
    let isNameChar c := c.isAlphanum || c == '_' || c == '.'
    if c.isAlpha ∨ c = '_' then some (c :: cs.takeWhile isNameChar, cs.dropWhile isNameChar)
      else none

/-- Reads the equals sign behind a name, and the value behind it. -/
def readValue? (cs : List Char) : Option Template :=
  match cs.dropWhile Text.isBlank with
  | '=' :: cs => if isVacant cs then some [] else Template.parse? (cs.dropWhile Text.isBlank)
  | _ => none

/-- A variable and the template of its value. -/
structure Definition where
  name : String
  value : Template
  deriving DecidableEq, Repr

/-- Reads a definition. The word `export` may stand before the name; it may also be the name. -/
def Definition.parse? (line : List Char) : Option Definition := do
  let (name, rest) ← readName? ((Text.trimEnd line).dropWhile Text.isBlank)
  let rest := rest.dropWhile Text.isBlank
  if String.ofList name = "export" ∧ rest.head? ≠ some '=' then
    let (name, rest) ← readName? rest
    return ⟨String.ofList name, ← readValue? rest⟩
  else
    return ⟨String.ofList name, ← readValue? rest⟩

/-- The definitions before the first line that is at fault. -/
def definitions (cs : List Char) : List Definition :=
  match cs with
  | [] => []
  | c :: cs =>
    if isVacant ((c :: cs).takeWhile (· != '\n')) then definitions (dropLine (c :: cs))
    else
      match _h : takeDefinition .text (c :: cs) with
      | none => []
      | some (line, rest) =>
        if isVacant line then definitions rest
        else
          match Definition.parse? line with
          | none => []
          | some d => d :: definitions rest
termination_by cs.length
decreasing_by
  · have := length_dropLine_le cs
    grind [dropLine]
  · have := length_takeDefinition_le _h
    grind
  · have := length_takeDefinition_le _h
    grind

/-- The definitions of a file; the mark of the byte order may stand before them. -/
def ofFile (text : String) : List Definition :=
  match text.toList with
  | '\uFEFF' :: cs => definitions cs
  | cs => definitions cs

/-- The variables whose values definitions depend on. -/
def mentioned (ds : List Definition) : List String := ds.flatMap fun d => d.name :: d.value.names

/-- The environment with definitions as defaults, made one after another, so that a value may
mention the variables before it; none if there is one that cannot be made. -/
def withDefaults (env : Environment) (ds : List Definition) : Option Environment :=
  ds.foldlM (fun env d => env.define d.name (env.expand d.value)) env

example : ofFile "# x\nexport A = 'b c' # d\n" = [⟨"A", [.text 'b', .text ' ', .text 'c']⟩] := by
  decide +kernel

end VertexPrograms.Environment
