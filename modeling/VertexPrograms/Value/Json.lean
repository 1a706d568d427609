/-!
# Trees of data

The data of a JSON document. A number is an integer or a double, by the way it is written; the order
of an object's fields is kept, and so is the text of a string.
-/

namespace VertexPrograms

/-- A JSON document. -/
inductive Json where
  | null
  | bool (b : Bool)
  /-- A number written without a point and without a power of ten. -/
  | integer (n : Int)
  /-- Any other number, as the double nearest to it. -/
  | real (x : Float)
  | string (s : String)
  | array (items : List Json)
  | object (fields : List (String × Json))

instance : Inhabited Json := ⟨.null⟩

namespace Json

mutual

/-- Whether two documents are the same data, field for field. -/
def same : Json → Json → Bool
  | null, null => true
  | bool a, bool b => a == b
  | integer m, integer n => m == n
  | real x, real y => x == y
  | string a, string b => a == b
  | array xs, array ys => sameItems xs ys
  | object xs, object ys => sameFields xs ys
  | _, _ => false

/-- Whether two lists of documents are the same, item for item. -/
def sameItems : List Json → List Json → Bool
  | [], [] => true
  | x :: xs, y :: ys => same x y && sameItems xs ys
  | _, _ => false

/-- Whether two lists of fields are the same, name and value. -/
def sameFields : List (String × Json) → List (String × Json) → Bool
  | [], [] => true
  | (k, x) :: xs, (l, y) :: ys => k == l && same x y && sameFields xs ys
  | _, _ => false

end

instance : BEq Json := ⟨same⟩

end Json

end VertexPrograms
