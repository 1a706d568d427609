import VertexPrograms.Error

/-!
# Faults of user code

Programs and aggregators may fail. One that reports a failure gives its causes, the outermost first;
one that panics may leave a text behind.
-/

namespace VertexPrograms

/-- How user code failed. -/
inductive Fault where
  /-- A failure with its causes, outermost first. -/
  | reported (causes : List String)
  /-- A panic, with its text if it has one. -/
  | panicked (text : Option String)
  deriving DecidableEq, Repr

namespace Fault

/-- The fault of passing an error on. -/
def ofError (e : Error) : Fault := .reported [e.message]

/-- The text of a fault: the causes in order, or what the panic said. -/
def message : Fault → String
  | reported causes => ": ".intercalate causes
  | panicked none => "panicked"
  | panicked (some text) => s!"panicked: {text}"

end Fault

end VertexPrograms
