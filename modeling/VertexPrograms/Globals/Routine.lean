import VertexPrograms.Globals.Basic

/-!
# Calls on the table of globals

Several workers use one table at the same time; a single call is atomic, a sequence of calls is not.
So a piece of code that uses the table is a `Routine`: a tree that makes one call after another and
goes on from the answer. Run alone it is a function on tables; the calls of two routines may also be
interleaved.
-/

namespace VertexPrograms.Globals

/-- One atomic call on the table. -/
inductive Call where
  | contains (key : String)
  | isConstant (key : String)
  | keys
  | size
  | value (key : String)
  | get (key : String) (wanted : Option Kind)
  | insert (key : String) (value : Value) (constant : Bool)
  | set (key : String) (value : Value)
  /-- Answers the value before the change. -/
  | update (key : String) (f : Value → Value)

/-- What a call answers when it is not refused. -/
def Call.Answer : Call → Type
  | contains _ | isConstant _ => Bool
  | keys => List String
  | size => Nat
  | value _ | get _ _ | update _ _ => Value
  | insert _ _ _ | set _ _ => Unit

/-- The table after a call that may be refused: unchanged if it is. -/
def settle {α : Type} (g : Globals) (answer : α) : Except Error Globals → Except Error α × Globals
  | .ok g' => (.ok answer, g')
  | .error e => (.error e, g)

/-- Makes a call: its answer, and the table after it. -/
def perform (g : Globals) : (call : Call) → Except Error call.Answer × Globals
  | .contains key => (.ok (g.contains key), g)
  | .isConstant key => (g.isConstant key, g)
  | .keys => (.ok g.keys, g)
  | .size => (.ok g.size, g)
  | .value key => (g.value key, g)
  | .get key wanted => (g.get key wanted, g)
  | .insert key value constant => g.settle () (g.insert key value constant)
  | .set key value => g.settle () (g.set key value)
  | .update key f =>
    match g.value key with
    | .error e => (.error e, g)
    | .ok old => g.settle old (g.update key f)

/-- Code that uses the table: it ends with a result, or makes a call and goes on from the answer. -/
inductive Routine (α : Type) where
  | done (result : α)
  | call (call : Call) (next : Except Error call.Answer → Routine α)

namespace Routine

variable {α : Type}

/-- Runs a routine alone: its result, and the table after its last call. -/
def run : Routine α → Globals → α × Globals
  | done result, g => (result, g)
  | call c next, g => (next (g.perform c).1).run (g.perform c).2

/-- Goes on with another routine when the first one ends. -/
def bind {β : Type} : Routine α → (α → Routine β) → Routine β
  | done result, f => f result
  | call c next, f => call c fun answer => (next answer).bind f

/-- Makes a call and ends with the error if it is refused; otherwise goes on with `next`. -/
def attempt (c : Call) (next : c.Answer → Routine (Except Error Unit)) :
    Routine (Except Error Unit) :=
  .call c fun
    | .ok answer => next answer
    | .error e => .done (.error e)

end Routine

/-- Writes a value under a key, registering the key if it is not there. -/
def publish (key : String) (value : Value) : Routine (Except Error Unit) :=
  .attempt (.contains key) fun (present : Bool) =>
    .attempt (if present then .set key value else .insert key value false) fun _ => .done (.ok ())

end VertexPrograms.Globals
