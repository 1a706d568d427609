import VertexPrograms.Program.Update
import VertexPrograms.Scope.Locks
import VertexPrograms.Script.Datum
import VertexPrograms.Script.Instruction

/-!
# Running scripts

A script becomes a vertex program. Its instructions are turned into the calls of an update one after
another, each with the rest of the script as its continuation. The memory that scripts share counts
the script updates begun on each vertex and keeps the trace: the results of every update, in the
order of execution.
-/

namespace VertexPrograms.Script

/-- The results of one script update. -/
structure TraceEntry (V : Type) where
  vertex : VertexId
  program : String
  replies : Array (Reply V) := #[]

/-- The memory that scripts share. -/
structure Memory (V : Type) where
  /-- Script updates begun, by vertex. -/
  begun : Std.ExtTreeMap VertexId Nat compare := ∅
  trace : Array (TraceEntry V) := #[]

namespace Memory

variable {V : Type}

/-- The number of script updates begun on a vertex. -/
def begunOn (m : Memory V) (id : VertexId) : Nat := m.begun.getD id 0

/-- Notes the beginning of an update. -/
def enter (id : VertexId) (program : String) (m : Memory V) : Memory V :=
  { begun := m.begun.insert id (m.begunOn id + 1), trace := m.trace.push { vertex := id, program } }

/-- Adds a result to the update that has begun last. -/
def note (reply : Reply V) (m : Memory V) : Memory V :=
  { m with
    trace := m.trace.modify (m.trace.size - 1) fun t => { t with replies := t.replies.push reply } }

end Memory

/-- The updates that scripts make. -/
abbrev Step (V : Type) := Update V Int64 (Memory V) String

/-- What an update of a script knows besides its memory. -/
structure Frame (V : Type) where
  acc : V
  /-- The loop variable. -/
  it : VertexId

variable {V : Type}

/-- The vertex an operand names. -/
def IdOperand.resolve (s : Scope) (f : Frame V) : IdOperand → VertexId
  | literal id => id
  | self => s.vertex
  | it => f.it

/-- The vertices a loop goes through. -/
def Side.ids (s : Scope) : Side → List VertexId
  | neighbours => s.neighbours
  | sources => s.sources
  | targets => s.targets

section Evaluation

variable [Datum V] (s : Scope)

/-- Finds the datum an operand names, and goes on with it. -/
def Operand.evaluate (f : Frame V) (next : V → Step V) : Operand V → Step V
  | literal v => next v
  | acc => next f.acc
  | data => .access .readCentre (.orFail next)
  | id => next (Datum.ofId s.vertex)

/-- Decides a condition, and goes on with the answer; `earlier` updates have begun on the centre
before. -/
def Condition.decide (earlier : Nat) (f : Frame V) (next : Bool → Step V) : Condition V → Step V
  | vertex id => next (s.vertex == id.resolve s f)
  | runsBelow n => next (Decidable.decide (earlier < n))
  | dataBelow v =>
    v.evaluate s f fun v => .access .readCentre (.orFail fun (d : V) => next (Datum.below d v))
  | accBelow v => v.evaluate s f fun v => next (Datum.below f.acc v)
  | even => next (s.vertex.toNat % 2 == 0)

/-- How the rest of a script goes on from a frame and the result of an instruction. -/
abbrev Resume (V : Type) := Frame V → Reply V → Step V

/-- Goes on with what an answer amounts to, or with the error as result. -/
def answered {α : Type} (f : Frame V) (next : Resume V) (reply : α → Reply V) :
    Except Error α → Step V
  | .ok answer => next f (reply answer)
  | .error e => next f (.refused e)

/-- Makes an access whose answer changes the accumulator, which is the result. -/
def accumulate {α : Type} (f : Frame V) (next : Resume V) (change : α → V) : Except Error α → Step V
  | .ok answer => next { f with acc := change answer } (.data (change answer))
  | .error e => next f (.refused e)

/-- Does what an action says, and goes on with its result. -/
def Action.perform (f : Frame V) (next : Resume V) : Action V → Step V
  | info =>
    .requested fun n => next f (.info s.vertex s.level s.lockSet.length s.vertexCount n)
  | edges => next f (.edges s.neighbours s.sources s.targets)
  | outDegree id => answered f next .number (s.outDegree (id.resolve s f))
  | inDegree id => answered f next .number (s.inDegree (id.resolve s f))
  | data => .access .readCentre (answered f next .data)
  | set v => v.evaluate s f fun v =>
    .access (.writeCentre fun _ => v) (answered f next fun _ => .done)
  | add v => v.evaluate s f fun v =>
    .access (.writeCentre (Datum.add · v)) (answered f next fun (old : V) =>
      .data (Datum.add old v))
  | neighbour id => .access (.readNeighbour (id.resolve s f)) (answered f next .data)
  | addNeighbour id v => v.evaluate s f fun v =>
    .access (.writeNeighbour (id.resolve s f) (Datum.add · v))
      (answered f next fun (old : V) => .data (Datum.add old v))
  | edge source target =>
    .access (.readEdge (source.resolve s f) (target.resolve s f)) (answered f next .edge)
  | addEdge source target n =>
    .access (.writeEdge (source.resolve s f) (target.resolve s f) (· + n))
      (answered f next fun (old : Int64) => .edge (old + n))
  | setAcc v => v.evaluate s f fun v => next { f with acc := v } (.data v)
  | accNeighbour id =>
    .access (.readNeighbour (id.resolve s f)) (accumulate f next fun (d : V) => Datum.add f.acc d)
  | accLeastNeighbour id =>
    .access (.readNeighbour (id.resolve s f))
      (accumulate f next fun (d : V) => if Datum.below d f.acc then d else f.acc)
  | accEdge source target =>
    .access (.readEdge (source.resolve s f) (target.resolve s f))
      (accumulate f next fun (n : Int64) => Datum.add f.acc (Datum.ofEdge n))
  | schedule id program priority =>
    .request (.vertex (id.resolve s f) program priority) (answered f next fun _ => .done)
  | scheduleNeighbours priority =>
    .request (.neighbours priority) (answered f next fun _ => .done)
  | global call => .global call fun result => next f (.ofCall call result)

/-- Notes a result in the trace. -/
def noted (reply : Reply V) (next : Step V) : Step V := .exchange (Memory.note reply) fun _ => next

/-- Goes through vertices in order, with the loop variable set to each, and then resets it. -/
def loopOver (body : Frame V → (Frame V → Step V) → Step V) (next : Frame V → Step V) :
    List VertexId → Frame V → Step V
  | [], f => next { f with it := s.vertex }
  | id :: rest, f => body { f with it := id } (loopOver body next rest)

mutual

/-- What an instruction does, followed by `next`. -/
def Instruction.evaluate (earlier : Nat) :
    Instruction V → Frame V → (Frame V → Step V) → Step V
  | .branch condition yes no, f, next =>
    condition.decide s earlier f fun
      | true => evaluateAll earlier yes f next
      | false => evaluateAll earlier no f next
  | .loop side body, f, next =>
    loopOver s (fun f next => evaluateAll earlier body f next) next (side.ids s) f
  | .bail causes, _, _ => .fail (.reported causes)
  | .panic text, _, _ => .fail (.panicked text)
  | .act action, f, next => action.perform s f fun f reply => noted reply (next f)
  | .insist action causes, f, next => action.perform s f fun f reply =>
    noted reply <|
      match reply with
      | .refused e => .fail (.reported (causes ++ [e.message]))
      | _ => next f

/-- What instructions do one after another, followed by `next`. -/
def evaluateAll (earlier : Nat) :
    List (Instruction V) → Frame V → (Frame V → Step V) → Step V
  | [], f, next => next f
  | i :: rest, f, next => i.evaluate earlier f fun f => evaluateAll earlier rest f next

end

end Evaluation

/-- The program of a script. -/
def program [Datum V] (name : String) (level : Option Consistency) (body : List (Instruction V)) :
    Program V Int64 (Memory V) String where
  name
  level
  update s :=
    .exchange (Memory.enter s.vertex name) fun m =>
      evaluateAll s (m.begunOn s.vertex) body ⟨Datum.zero, s.vertex⟩ fun _ => .done

end VertexPrograms.Script
