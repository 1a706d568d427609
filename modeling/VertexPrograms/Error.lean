import VertexPrograms.VertexId

/-!
# Errors

The ways an operation can be refused or fail, as causes with the data that explains them, and the
one place where they are worded. Every cause but four is a *validation* error: a fault of the
arguments, found before anything has changed.
-/

namespace VertexPrograms

/-- Why an operation has no result. -/
inductive Error where
  /-- The engine could not be put together. -/
  | construction (reason : String)
  /-- The operation is not allowed in the state found. -/
  | state (operation found : String)
  /-- The number is no vertex identifier. -/
  | invalidId (raw : Int)
  | duplicateVertex (id : VertexId)
  | unknownVertex (id : VertexId)
  | duplicateEdge (source target : VertexId)
  | unknownEdge (source target : VertexId)
  /-- A store cannot be announced smaller than it is. -/
  | invalidResize (requested current : Nat)
  | emptyGraph
  | invalidArgument (detail : String)
  | duplicateGlobal (key : String)
  | unknownGlobal (key : String)
  | constantGlobal (key : String)
  /-- The entry `key` holds, or would come to hold, a value of another kind. -/
  | typeMismatch (key expected found : String)
  | unknownAggregator (key : String)
  /-- An update reached for something its scope does not give it. -/
  | scopeViolation (vertex : VertexId) (reason : String)
  /-- User code failed during a run or a pass. -/
  | execution (detail : String)
  /-- There is no memory for what is asked. The program does not answer this but panics, and what it
  has changed until then stays changed. -/
  | capacity
  deriving DecidableEq, Repr

namespace Error

/-- The wording of an error. -/
def message : Error → String
  | construction reason => s!"Construction failed: {reason}"
  | state operation found => s!"Invalid state for {operation}: engine is {found}"
  | invalidId raw => s!"Invalid vertex id: {raw}"
  | duplicateVertex id => s!"Duplicate vertex: {id}"
  | unknownVertex id => s!"Unknown vertex: {id}"
  | duplicateEdge source target => s!"Duplicate edge: {source} -> {target}"
  | unknownEdge source target => s!"Unknown edge: {source} -> {target}"
  | invalidResize requested current =>
    s!"Invalid resize to {requested}: graph already holds {current} vertices"
  | emptyGraph => "Graph must not be empty"
  | invalidArgument detail => s!"Invalid argument: {detail}"
  | duplicateGlobal key => s!"Global already registered: {key}"
  | unknownGlobal key => s!"Unknown global: {key}"
  | constantGlobal key => s!"Global is constant: {key}"
  | typeMismatch key expected found =>
    s!"Type mismatch for {key}: expected {expected}, found {found}"
  | unknownAggregator key => s!"Unknown aggregator: {key}"
  | scopeViolation vertex reason => s!"Scope violation on vertex {vertex}: {reason}"
  | execution detail => s!"Execution failed: {detail}"
  | capacity => "Capacity overflow"

/-- Whether an error is the fault of the arguments alone. -/
def isValidation : Error → Bool
  | construction _ | state _ _ | execution _ | capacity => false
  | _ => true

end Error

/-- The identifier a signed 64-bit number stands for, or the error that it stands for none. -/
def VertexId.ofRaw (raw : Int) : Except Error VertexId :=
  match VertexId.ofRaw? raw with
  | some id => .ok id
  | none => .error (.invalidId raw)

end VertexPrograms
