import VertexPrograms.Toml.Item

/-!
# Tables of a TOML document

How keys and headers build up tables. A key is defined once. A path of a header leads through tables
however they were written, and to the last element of a list of tables; a dotted key may only lead
through tables that have no header of their own. Both create the tables missing on their way.
-/

namespace VertexPrograms.Toml

/-- A table under construction. -/
structure Table where
  origin : Origin
  entries : List (String × Item) := []

/-- The item under a key, and the path of tables that leads to it. -/
structure Assignment where
  path : List String
  key : String
  item : Item

/-- The header of a section: of one table, or of one more element of a list of tables. -/
inductive Header where
  | table (path : List String) (key : String)
  | element (path : List String) (key : String)

/-- A header and the assignments below it. -/
structure Section where
  header : Header
  body : List Assignment

namespace Table

/-- The table as an item. -/
def toItem (t : Table) : Item := .table t.origin t.entries

/-- The item under a key. -/
def find? (t : Table) (key : String) : Option Item := t.entries.lookup key

/-- The table with an item under a key, in the place of the one that is there. -/
def put (t : Table) (key : String) (item : Item) : Table :=
  { t with entries := t.entries.filter (·.1 != key) ++ [(key, item)] }

/-- The table with one more key, unless the key is taken. -/
def add? (t : Table) (key : String) (item : Item) : Option Table :=
  match t.find? key with
  | some _ => none
  | none => some (t.put key item)

/-- Whether a path may lead through a table of the given origin. -/
def isOpen (dotted : Bool) : Origin → Bool
  | .inline => false
  | .header => !dotted
  | .implied | .dotted => true

/-- Changes the table at the end of a path, which is a dotted key or a header. -/
def descend (dotted : Bool) (change : Table → Option Table) : List String → Table → Option Table
  | [], t => change t
  | key :: path, t =>
    match t.find? key with
    | none =>
      (descend dotted change path { origin := if dotted then .dotted else .implied }).map
        fun child => t.put key child.toItem
    | some (.table origin entries) =>
      if isOpen dotted origin then
        (descend dotted change path ⟨origin, entries⟩).map fun child => t.put key child.toItem
      else none
    | some (.tables elements) =>
      match elements.getLast? with
      | none => none
      | some last =>
        (descend dotted change path ⟨.header, last⟩).map fun child =>
          t.put key (.tables (elements.dropLast ++ [child.entries]))
    | some _ => none

/-- Defines a key. A path ends at a table that dotted keys made, and no path at any other. -/
def define (t : Table) (a : Assignment) : Option Table :=
  descend true
    (fun target => if (target.origin == .dotted) == a.path.isEmpty then none
      else target.add? a.key a.item)
    a.path t

/-- Defines keys one after another. -/
def defineAll (t : Table) (assignments : List Assignment) : Option Table :=
  assignments.foldlM define t

/-- Adds a section. A table may get its header after its parts, but only one header. -/
def addSection (t : Table) (s : Section) : Option Table :=
  match s.header with
  | .table path key =>
    descend false
      (fun parent => do
        let start ←
          match parent.find? key with
          | none => some []
          | some (.table .implied entries) => some entries
          | some _ => none
        let child ← defineAll ⟨.header, start⟩ s.body
        return parent.put key child.toItem)
      path t
  | .element path key =>
    descend false
      (fun parent => do
        let elements ←
          match parent.find? key with
          | none => some []
          | some (.tables elements) => some elements
          | some _ => none
        let child ← defineAll { origin := .header } s.body
        return parent.put key (.tables (elements ++ [child.entries])))
      path t

end Table

end VertexPrograms.Toml
