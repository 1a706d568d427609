import VertexPrograms.Value.Json

/-!
# Values

The values a global can hold. Each has a kind, and a value is taken out of the table by asking for
a kind.
-/

namespace VertexPrograms

/-- The kinds of values. -/
inductive Kind where
  | null
  | boolean
  | integer
  | float
  | text
  | vector
  | json
  deriving DecidableEq, Repr

/-- The name of a kind. -/
def Kind.name : Kind → String
  | .null => "null"
  | .boolean => "boolean"
  | .integer => "integer"
  | .float => "float"
  | .text => "text"
  | .vector => "vector"
  | .json => "json"

/-- What a global holds. -/
inductive Value where
  | null
  | boolean (b : Bool)
  | integer (n : Int64)
  | float (x : Float)
  | text (s : String)
  | vector (xs : List Float)
  | json (document : Json)

instance : Inhabited Value := ⟨.null⟩

namespace Value

/-- The kind of a value. -/
def kind : Value → Kind
  | null => .null
  | boolean _ => .boolean
  | integer _ => .integer
  | float _ => .float
  | text _ => .text
  | vector _ => .vector
  | json _ => .json

/-- The text of a text. -/
def text? : Value → Option String
  | text s => some s
  | _ => none

/-- The value itself, if it is of the kind asked for; without a kind, every value is right. -/
def ofKind? (wanted : Option Kind) (v : Value) : Option Value :=
  match wanted with
  | none => some v
  | some k => if v.kind = k then some v else none

/-- Whether two lists of doubles are equal as numbers. -/
def sameNumbers : List Float → List Float → Bool
  | [], [] => true
  | x :: xs, y :: ys => x == y && sameNumbers xs ys
  | _, _ => false

/-- Equality of values. Doubles are compared as numbers, so a value with a NaN in it differs from
itself. -/
def same : Value → Value → Bool
  | null, null => true
  | boolean a, boolean b => a == b
  | integer a, integer b => a == b
  | float a, float b => a == b
  | text a, text b => a == b
  | vector a, vector b => sameNumbers a b
  | json a, json b => a.same b
  | _, _ => false

instance : BEq Value := ⟨same⟩

end Value

end VertexPrograms
