import VertexPrograms.Error
import VertexPrograms.Text.Blank

/-!
# Consistency levels

How much of its surroundings an update may change: its own vertex, the edges at it as well, or the
neighbouring vertices too. Each level includes the ones before it.
-/

namespace VertexPrograms

/-- The reach of an update's writes, narrowest first. -/
inductive Consistency where
  /-- The centre's data only. -/
  | vertex
  /-- The edges at the centre as well. -/
  | edge
  /-- The data of the neighbours as well. -/
  | full
  deriving DecidableEq, Repr

namespace Consistency

/-- The place of a level among the three. -/
def rank : Consistency → Nat
  | vertex => 0
  | edge => 1
  | full => 2

instance : LE Consistency := ⟨fun a b => a.rank ≤ b.rank⟩

instance : LT Consistency := ⟨fun a b => a.rank < b.rank⟩

instance (a b : Consistency) : Decidable (a ≤ b) := inferInstanceAs (Decidable (a.rank ≤ b.rank))

instance (a b : Consistency) : Decidable (a < b) := inferInstanceAs (Decidable (a.rank < b.rank))

/-- The name of a level. -/
def name : Consistency → String
  | vertex => "vertex"
  | edge => "edge"
  | full => "full"

/-- The level with the given name, spelled exactly. -/
def ofName? : String → Option Consistency
  | "vertex" => some vertex
  | "edge" => some edge
  | "full" => some full
  | _ => none

/-- Reads a level by name, ignoring surrounding blanks and ASCII case. -/
def parse (text : String) : Except Error Consistency :=
  let key := Text.normalize text
  match ofName? key with
  | some level => .ok level
  | none => .error (.invalidArgument s!"unknown consistency level: {key}")

/-- Every level is found by its name. -/
@[simp] theorem ofName?_name (level : Consistency) : ofName? level.name = some level := by
  cases level <;> rfl

end Consistency

end VertexPrograms
