import VertexPrograms.Fault
import VertexPrograms.Globals.Routine
import VertexPrograms.Scheduler.Basic
import VertexPrograms.Scope.Access

/-!
# Vertex programs

A vertex program is run on one vertex at a time. What it does there is an `Update`: a tree that
makes one atomic call after another, each on the data in scope, on the globals, on the memory the
programs share or for a new task, and goes on from the answer. The tasks an update asks for are only
published when it has ended well; what it has written stays written in any case.

The type parameters are the data of vertices and edges, the shared memory, and the names by which
programs refer to each other.
-/

namespace VertexPrograms

/-- A request for more work; without a program it is for the one that makes the request. -/
inductive Request (P : Type) where
  /-- A run on one vertex. -/
  | vertex (id : VertexId) (program : Option P) (priority : Priority)
  /-- A run on every neighbour of the centre. -/
  | neighbours (priority : Priority)

/-- What a program does on one vertex. -/
inductive Update (V E M P : Type) where
  /-- The update has ended well. -/
  | done
  /-- The update has failed. -/
  | fail (fault : Fault)
  /-- Reads or writes data in scope. -/
  | access (call : Access V E) (next : Except Error call.Answer → Update V E M P)
  /-- Makes a call on the globals. -/
  | global (call : Globals.Call) (next : Except Error call.Answer → Update V E M P)
  /-- Changes the shared memory and learns what it was before. -/
  | exchange (change : M → M) (next : M → Update V E M P)
  /-- Asks for more work. -/
  | request (request : Request P) (next : Except Error Unit → Update V E M P)
  /-- Learns how many tasks the update has asked for. -/
  | requested (next : Nat → Update V E M P)

/-- A program that can be run on the vertices of a graph. -/
structure Program (V E M P : Type) where
  name : String
  /-- The level the program asks for; without one it runs at the default level. -/
  level : Option Consistency := none
  update : Scope → Update V E M P

namespace Update

variable {V E M P : Type}

/-- Goes on with an answer, or fails with the error. -/
def orFail {α : Type} (next : α → Update V E M P) : Except Error α → Update V E M P
  | .ok answer => next answer
  | .error e => .fail (.ofError e)

/-- What an update can change. -/
structure State (V E M P : Type) where
  cells : Cells V E
  globals : Globals
  memory : M
  /-- The tasks asked for so far. -/
  requests : Array (Task P) := #[]

/-- The tasks a request stands for. -/
def tasksOf (s : Scope) (self : P) : Request P → Except Error (List (Task P))
  | .vertex id program priority =>
    match s.topology.require id with
    | .error e => .error e
    | .ok i => .ok [⟨i, priority, program.getD self⟩]
  | .neighbours priority => .ok ((s.topology.adjacentOf s.centre).map fun i => ⟨i, priority, self⟩)

/-- Adds the tasks of a request to those asked for. -/
def State.request (st : State V E M P) (s : Scope) (self : P) (r : Request P) :
    Except Error Unit × State V E M P :=
  match tasksOf s self r with
  | .error e => (.error e, st)
  | .ok tasks => (.ok (), { st with requests := st.requests ++ tasks })

/-- Runs an update of the program `self` within a scope, to its end: its fault, if it failed. -/
def run (s : Scope) (self : P) : Update V E M P → State V E M P → Option Fault × State V E M P
  | done, st => (none, st)
  | fail fault, st => (some fault, st)
  | access call next, ⟨cells, globals, memory, requests⟩ =>
    let (answer, cells) := cells.perform s call
    run s self (next answer) ⟨cells, globals, memory, requests⟩
  | global call next, ⟨cells, globals, memory, requests⟩ =>
    let (answer, globals) := globals.perform call
    run s self (next answer) ⟨cells, globals, memory, requests⟩
  | exchange change next, ⟨cells, globals, memory, requests⟩ =>
    run s self (next memory) ⟨cells, globals, change memory, requests⟩
  | request r next, st =>
    let (answer, st) := st.request s self r
    run s self (next answer) st
  | requested next, st => run s self (next st.requests.size) st

end Update

end VertexPrograms
