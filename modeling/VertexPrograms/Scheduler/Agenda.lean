import VertexPrograms.Policy
import VertexPrograms.Priority
import VertexPrograms.Scheduler.Heap
import VertexPrograms.Scheduler.Queue
import VertexPrograms.VertexId

/-!
# Agendas

The order in which pending vertices are to be handed out, one shape for each policy: a queue, a heap
by priority and age, or one queue for each share of the vertices. Raising a priority in the heap
adds an entry and leaves the old one behind; such stale entries are passed over when they come up,
and dropped together when they have become too many.
-/

namespace VertexPrograms

/-- A pending vertex as it stands in the heap. -/
structure Entry where
  priority : Priority
  /-- The number of the task, in order of creation. -/
  seq : Nat
  vertex : VertexIndex
  deriving DecidableEq, Repr

/-- Whether an entry comes before another: greater priority first, the older first among equals. -/
def Entry.before (a b : Entry) : Bool :=
  decide (b.priority < a.priority) || (a.priority == b.priority && decide (a.seq < b.seq))

/-- The pending vertices in a shape that finds the next one. -/
inductive Agenda where
  | queue (all : Queue VertexIndex)
  | ranked (entries : Heap Entry)
  | shares (parts : Array (Queue VertexIndex))

namespace Agenda

/-- Whether memory, of less than `2 ^ 63` bytes, has room for so many shares, if the policy makes
any. -/
def hasRoom (policy : Policy) (partitions : Nat) : Bool :=
  policy != .roundRobin || 32 * partitions < 0x8000000000000000

/-- The agenda of a policy with nothing on it; `partitions` is the number of shares. -/
def empty (policy : Policy) (partitions : Nat) : Agenda :=
  match policy with
  | .fifo => queue {}
  | .priority => ranked .empty
  | .roundRobin => shares (Array.replicate (max partitions 1) {})

/-- The agenda of the same shape with nothing on it. -/
def cleared : Agenda → Agenda
  | queue _ => queue {}
  | ranked _ => ranked .empty
  | shares parts => shares (Array.replicate parts.size {})

/-- Puts a new task on the agenda. A vertex belongs to the share given by its remainder. -/
def add (e : Entry) : Agenda → Agenda
  | queue all => queue (all.push e.vertex)
  | ranked entries => ranked (entries.insert Entry.before e)
  | shares parts => shares (parts.modify (e.vertex % parts.size) (·.push e.vertex))

/-- Notes a raised priority: `e` is the task as it stands now, and one of `live` tasks. Only the
heap depends on it. It is rid of stale entries when it has more than two for each live task. -/
def raise (e : Entry) (live : Nat) (current : Entry → Bool) : Agenda → Agenda
  | ranked entries =>
    let entries := entries.insert Entry.before e
    ranked (if entries.size > 2 * max live 1 then entries.filter Entry.before current else entries)
  | agenda => agenda

/-- The first queue that is not empty among the shares `worker`, `worker + 1`, … going round. -/
def takeShare (parts : Array (Queue VertexIndex)) (worker : Nat) :
    Option (VertexIndex × Array (Queue VertexIndex)) :=
  (List.range parts.size).findSome? fun offset =>
    let i := (worker + offset) % parts.size
    match (parts[i]?).bind (·.pop?) with
    | none => none
    | some (v, rest) => some (v, parts.setIfInBounds i rest)

/-- Takes the next vertex for a worker off the agenda; entries that are not current are passed over.
-/
def take (worker : Nat) (current : Entry → Bool) : Agenda → Option VertexIndex × Agenda
  | queue all =>
    match all.pop? with
    | none => (none, queue all)
    | some (v, rest) => (some v, queue rest)
  | ranked entries =>
    let (found, rest) := entries.popUntil Entry.before current entries.size
    (found.map (·.vertex), ranked rest)
  | shares parts =>
    match takeShare parts worker with
    | none => (none, shares parts)
    | some (v, rest) => (some v, shares rest)

end Agenda

end VertexPrograms
