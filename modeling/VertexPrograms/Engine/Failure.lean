import VertexPrograms.VertexId

/-!
# Failures of a run

What is remembered of an update or a pass that failed.
-/

namespace VertexPrograms

/-- What failed. -/
inductive FailureSource where
  | update (vertex : VertexId) (program : String)
  | aggregator (key : String)
  deriving DecidableEq, Repr

/-- A failed update or pass. -/
structure Failure where
  source : FailureSource
  message : String
  /-- The number of the update that failed, or at which the pass was due. -/
  atUpdate : Nat
  deriving DecidableEq, Repr

namespace Failure

/-- The text of a failure. -/
def describe (f : Failure) : String :=
  match f.source with
  | .update vertex program => s!"{program} on vertex {vertex}: {f.message}"
  | .aggregator key => s!"aggregator {key}: {f.message}"

/-- The report of a run: its failures by update, those of one update in the order they were
recorded. -/
def report (failures : List Failure) : List Failure :=
  failures.mergeSort fun a b => decide (a.atUpdate ≤ b.atUpdate)

end Failure

end VertexPrograms
