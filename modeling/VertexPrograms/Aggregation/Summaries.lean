import VertexPrograms.Aggregation.Basic

/-!
# Sums and counts over the vertices

The two bundled aggregators write their total into a global, which they register when it is not
there.
-/

namespace VertexPrograms

/-- Publishes a value; a refusal of the table is the fault of the pass. -/
def Aggregator.publish (target : String) (value : Value) : Globals.Routine (Except Fault Unit) :=
  (Globals.publish target value).bind fun result => .done (result.mapError .ofError)

variable {V E : Type}

/-- The sum of a number for each vertex, as a float under `target`. -/
def vertexSum (target : String) (number : V → Float) : Aggregator V E Float where
  identity := 0.0
  mapVertex _ data := .ok (number data)
  combine a b := a + b
  finalize total := Aggregator.publish target (.float total)

/-- The number of vertices with a property, as an integer under `target`. -/
def vertexCount (target : String) (property : V → Bool) : Aggregator V E Int64 where
  identity := 0
  mapVertex _ data := .ok (if property data then 1 else 0)
  combine a b := a + b
  finalize total := Aggregator.publish target (.integer total)

end VertexPrograms
