import VertexPrograms.Consistency
import VertexPrograms.Globals.Routine
import VertexPrograms.Priority
import VertexPrograms.Value.Basic

/-!
# Scripts

A small language of vertex programs. A script is a list of instructions, run with an accumulator of
the vertex data's type and a loop variable that stands for a vertex; most instructions have a
result, which goes into a trace. An instruction that is refused has its error as result, and the
script goes on unless the instruction says otherwise.
-/

namespace VertexPrograms.Script

/-- A vertex named in a script. -/
inductive IdOperand where
  | literal (id : VertexId)
  /-- The centre. -/
  | self
  /-- The loop variable. -/
  | it

/-- A datum named in a script. -/
inductive Operand (V : Type) where
  | literal (v : V)
  /-- The accumulator. -/
  | acc
  /-- The centre's data. -/
  | data
  /-- The centre's identifier as a datum. -/
  | id

/-- What a branch depends on. -/
inductive Condition (V : Type) where
  /-- The centre is the given vertex. -/
  | vertex (id : IdOperand)
  /-- Fewer script updates of the centre have begun before this one. -/
  | runsBelow (n : Nat)
  | dataBelow (v : Operand V)
  | accBelow (v : Operand V)
  /-- The centre's identifier is even. -/
  | even

/-- What a loop goes through. -/
inductive Side where
  | neighbours
  | sources
  | targets

/-- An instruction with a result. -/
inductive Action (V : Type) where
  | info
  | edges
  | outDegree (id : IdOperand)
  | inDegree (id : IdOperand)
  | data
  | set (v : Operand V)
  | add (v : Operand V)
  | neighbour (id : IdOperand)
  | addNeighbour (id : IdOperand) (v : Operand V)
  | edge (source target : IdOperand)
  | addEdge (source target : IdOperand) (n : Int64)
  | setAcc (v : Operand V)
  | accNeighbour (id : IdOperand)
  | accLeastNeighbour (id : IdOperand)
  | accEdge (source target : IdOperand)
  /-- Asks for a run on a vertex, of another program if one is named. -/
  | schedule (id : IdOperand) (program : Option String) (priority : Priority)
  | scheduleNeighbours (priority : Priority)
  | global (call : Globals.Call)

/-- An instruction. -/
inductive Instruction (V : Type) where
  | branch (condition : Condition V) (yes no : List (Instruction V))
  | loop (side : Side) (body : List (Instruction V))
  /-- Fails for the given causes. -/
  | bail (causes : List String)
  | panic (text : Option String)
  /-- Does something and goes on, even if it is refused. -/
  | act (action : Action V)
  /-- Does something and fails if it is refused, with further causes in front of the error. -/
  | insist (action : Action V) (causes : List String)

instance {V : Type} : Inhabited (Instruction V) := ⟨.bail []⟩

/-- The result of an instruction. -/
inductive Reply (V : Type) where
  | done
  | refused (e : Error)
  | data (v : V)
  | edge (n : Int64)
  | number (n : Nat)
  | flag (b : Bool)
  | value (v : Value)
  | kind (k : Kind)
  | keys (ks : List String)
  | size (n : Nat)
  /-- The centre, the level, the number of locks, the number of vertices, the tasks asked for. -/
  | info (vertex : VertexId) (level : Consistency) (locks vertices requested : Nat)
  /-- Neighbours, sources and targets. -/
  | edges (neighbours sources targets : List VertexId)

/-- The reply that a call on the globals amounts to; a change answers the kind it found. -/
def Reply.ofAnswer {V : Type} : (call : Globals.Call) → call.Answer → Reply V
  | .contains _, (b : Bool) | .isConstant _, (b : Bool) => .flag b
  | .keys, (ks : List String) => .keys ks
  | .size, (n : Nat) => .size n
  | .value _, (v : Value) | .get _ _, (v : Value) => .value v
  | .update _ _, (v : Value) => .kind v.kind
  | .insert _ _ _, _ | .set _ _, _ => .done

/-- The reply for the result of a call on the globals. -/
def Reply.ofCall {V : Type} (call : Globals.Call) : Except Error call.Answer → Reply V
  | .ok answer => ofAnswer call answer
  | .error e => .refused e

/-- Raises a value by another: numbers are added, texts and vectors extended, and a boolean is
negated. Values that do not go together leave the first as it is. -/
def bump (step : Value) : Value → Value
  | .integer a =>
    match step with
    | .integer b => .integer (a + b)
    | _ => .integer a
  | .float a =>
    match step with
    | .float b => .float (a + b)
    | _ => .float a
  | .text a =>
    match step with
    | .text b => .text (a ++ b)
    | _ => .text a
  | .vector a =>
    match step with
    | .vector b => .vector (a ++ b)
    | _ => .vector a
  | .boolean a => .boolean (!a)
  | v => v

end VertexPrograms.Script
