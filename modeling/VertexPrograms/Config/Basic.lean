import VertexPrograms.Consistency
import VertexPrograms.Policy

/-!
# Configuration

The settings of an engine, with their defaults.
-/

namespace VertexPrograms

/-- The settings of an engine. -/
structure Config where
  /-- Number of workers of a run; 0 stands for as many as the machine has processors. -/
  workerThreads : Nat := 0
  /-- The order in which tasks are handed out. -/
  policy : Policy := .fifo
  /-- The level of programs that do not ask for one. -/
  consistency : Consistency := .edge
  /-- Whether a run stops at its first failure. -/
  abortOnError : Bool := false
  /-- Number of threads of an aggregation pass; 0 stands for the number of workers. -/
  syncThreads : Nat := 0
  deriving DecidableEq, Repr

namespace Config

/-- The number of workers on a machine with the given number of processors. -/
def resolvedWorkers (c : Config) (processors : Nat) : Nat :=
  if c.workerThreads = 0 then processors else c.workerThreads

/-- The number of threads of a pass on a machine with the given number of processors. -/
def resolvedSync (c : Config) (processors : Nat) : Nat :=
  if c.syncThreads = 0 then c.resolvedWorkers processors else c.syncThreads

end Config

end VertexPrograms
