import VertexPrograms.Program.Update

/-!
# Connected components

Every vertex carries a label. An update gives its centre the smallest label in the neighbourhood
and, when that is smaller than the centre's own, asks for updates of the neighbours, the more urgent
the smaller the label. Starting from labels of their own, the vertices of a weakly connected
component all end with the smallest among them.
-/

namespace VertexPrograms.Components

variable {E M P : Type}

/-- The smallest of a label and those of the given neighbours; goes on with it. -/
def gather (next : UInt32 → Update UInt32 E M P) : List VertexId → UInt32 → Update UInt32 E M P
  | [], smallest => next smallest
  | id :: rest, smallest =>
    .access (.readNeighbour id) (.orFail fun (label : UInt32) =>
      gather next rest (min smallest label))

/-- The urgency of spreading a label. -/
def urgency (label : UInt32) : Priority := .ofFloat (-label.toFloat)

/-- Lowers the label of the centre from `current` to `smallest`, if it is smaller, and wakes the
neighbours. -/
def settle (current smallest : UInt32) : Update UInt32 E M P :=
  if smallest < current then
    .access (.writeCentre fun _ => smallest) fun _ =>
      .request (.neighbours (urgency smallest)) fun _ => .done
  else .done

/-- The program, which needs to read its neighbours undisturbed. -/
def program : Program UInt32 E M P where
  name := "components"
  level := some .edge
  update s :=
    .access .readCentre <| .orFail fun (current : UInt32) =>
      gather (settle current) s.neighbours current

end VertexPrograms.Components
