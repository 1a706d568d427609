import VertexPrograms.Decimal.Shortest
import VertexPrograms.Value.Basic

/-!
# Values as documents

A value is written as its kind's name with its content under it; the null value as its name alone.
A double that is infinite or no number is written as null, so it is not read back.
-/

namespace VertexPrograms

namespace Json

/-- A double as a document. -/
def ofFloat (x : Float) : Json :=
  match Decimal.Binary.ofBits? x.toBits with
  | none => null
  | some _ => real x

/-- The double nearest to a number. -/
def float? : Json → Option Float
  | integer n => some (Decimal.nearest (n < 0) n.natAbs 0)
  | real x => some x
  | _ => none

end Json

namespace Value

/-- The document of a value. -/
def encode : Value → Json
  | null => .string "Null"
  | boolean b => .object [("Boolean", .bool b)]
  | integer n => .object [("Integer", .integer n.toInt)]
  | float x => .object [("Float", .ofFloat x)]
  | text s => .object [("Text", .string s)]
  | vector xs => .object [("Vector", .array (xs.map .ofFloat))]
  | json document => .object [("Json", document)]

/-- Reads a value back from its document. -/
def decode? : Json → Option Value
  | .string "Null" => some null
  | .object [("Boolean", .bool b)] => some (boolean b)
  | .object [("Integer", .integer n)] =>
    if -0x8000000000000000 ≤ n ∧ n < 0x8000000000000000 then some (integer (Int64.ofInt n))
      else none
  | .object [("Float", document)] => document.float?.map float
  | .object [("Text", .string s)] => some (text s)
  | .object [("Vector", .array items)] => (items.mapM Json.float?).map vector
  | .object [("Json", document)] => some (json document)
  | _ => none

end Value

end VertexPrograms
