import VertexPrograms.Aggregation.Registry
import VertexPrograms.Config.Basic
import VertexPrograms.Engine.Failure
import VertexPrograms.Engine.Phase
import VertexPrograms.Graph.Description
import VertexPrograms.Metrics
import VertexPrograms.Program.Update

/-!
# Engines

An engine holds a graph, the globals, the aggregators and the pending tasks, and what is known of
the last run. An operation answers and leaves an engine behind; what it may do depends on the phase.
-/

namespace VertexPrograms

/-- An engine. -/
structure Engine (V E M P : Type) where
  config : Config
  /-- The program each name stands for. -/
  programs : P → Program V E M P
  /-- The memory the programs share. -/
  memory : M
  scheduler : Scheduler P
  phase : Phase := .created
  store : Store V E := {}
  globals : Globals := {}
  registry : Registry V E := {}
  /-- Updates of the last run, or of the present one so far. -/
  updateCount : Nat := 0
  /-- Failures of the last run, or of the present one so far. -/
  failures : List Failure := []
  metrics : Metrics := {}

/-- An operation on an engine: its answer, and the engine after it. -/
abbrev Engine.Operation (V E M P α : Type) :=
  Engine V E M P → Except Error α × Engine V E M P

namespace Engine

variable {V E M P α : Type}

/-- A new engine; `processors` is the number of workers that a configuration without a number stands
for. -/
def new (config : Config) (processors : Nat) (programs : P → Program V E M P) (memory : M) :
    Engine V E M P :=
  { config, programs, memory, scheduler := .new config.policy (config.resolvedWorkers processors) }

/-- Leaves the first phase, now that something has been set up. -/
def markConfigured (e : Engine V E M P) : Engine V E M P := { e with phase := e.phase.configure }

namespace Operation

/-- Lets an operation happen only in some phases. -/
def during (name : String) (allowed : Phase → Bool) (op : Operation V E M P α) :
    Operation V E M P α := fun e =>
  if allowed e.phase then op e else (.error (.state name e.phase.name), e)

/-- An operation that changes nothing. -/
def ask (f : Engine V E M P → Except Error α) : Operation V E M P α := fun e => (f e, e)

/-- An operation that changes the engine unless it is refused. -/
def change (f : Engine V E M P → Except Error (Engine V E M P)) : Operation V E M P Unit := fun e =>
  match f e with
  | .ok e => (.ok (), e)
  | .error error => (.error error, e)

/-- An operation that sets something up unless it is refused. -/
def setUp (f : Engine V E M P → Except Error (Engine V E M P)) : Operation V E M P Unit :=
  change fun e => markConfigured <$> f e

/-- An operation that sets something up in the graph unless it is refused. -/
def build (f : Store V E → Except Error (Store V E)) : Operation V E M P Unit :=
  setUp fun e => (fun store => { e with store }) <$> f e.store

end Operation

end Engine

end VertexPrograms
