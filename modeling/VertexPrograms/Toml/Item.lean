/-!
# Items of a TOML document

What stands behind a key: a plain value, a table or a list of tables. A table remembers how it was
written, because that decides what a later line may still add to it.
-/

namespace VertexPrograms.Toml

/-- How a table was written. -/
inductive Origin where
  /-- In braces, as a value. It is closed. -/
  | inline
  /-- Under a header of its own, as an element of a list of tables, or as the document itself. -/
  | header
  /-- Under no header of its own, only as a part of the path of another one. -/
  | implied
  /-- As a part of the path of a key. -/
  | dotted
  deriving DecidableEq, Repr

/-- What stands behind a key. -/
inductive Item where
  | string (text : String)
  | integer (n : Int)
  | float (x : Float)
  | boolean (b : Bool)
  /-- A date, a time of day or both, as it was written. -/
  | moment (text : String)
  | array (items : List Item)
  | table (origin : Origin) (entries : List (String × Item))
  /-- The tables under headers in double brackets, by their entries. -/
  | tables (elements : List (List (String × Item)))

instance : Inhabited Item := ⟨.boolean false⟩

/-- A reader takes what it reads off the front of a text. -/
abbrev Reader (α : Type) := List Char → Option (α × List Char)

end VertexPrograms.Toml
