import Std.Data.ExtTreeMap
import VertexPrograms.Scheduler.Agenda

/-!
# The scheduler

Pending tasks, at most one for each vertex. A task pushed for a vertex that is already pending
raises the priority of the pending one, if it is greater, and has no other effect. Tasks are handed
out by policy. The scheduler counts the tasks that are handed out and not yet completed, for while
there are any, more may be pushed: a worker that finds nothing pending has to wait for them.
-/

namespace VertexPrograms

/-- A request to run a program on a vertex. -/
structure Task (P : Type) where
  vertex : VertexIndex
  priority : Priority
  program : P
  deriving DecidableEq, Repr

/-- What is known of the pending task of a vertex. -/
structure Pending (P : Type) where
  priority : Priority
  /-- The number of the task, in order of creation. -/
  seq : Nat
  program : P

/-- What a worker that asks for a task gets. -/
inductive Handout (P : Type) where
  | task (t : Task P)
  /-- The run is over: aborted, or nothing is pending and nothing handed out. -/
  | finished
  /-- Nothing is pending, but a task that is handed out may still push some. -/
  | blocked

/-- The pending tasks and the progress of a run. -/
structure Scheduler (P : Type) where
  policy : Policy
  agenda : Agenda
  /-- The pending task of each vertex. -/
  pending : Std.ExtTreeMap VertexIndex (Pending P) compare := ∅
  nextSeq : Nat := 0
  /-- Number of tasks handed out and not completed. -/
  active : Nat := 0
  aborted : Bool := false

namespace Scheduler

variable {P : Type}

/-- A scheduler with nothing pending. -/
def new (policy : Policy) (partitions : Nat) : Scheduler P :=
  { policy, agenda := .empty policy partitions }

/-- The number of pending tasks. -/
def size (s : Scheduler P) : Nat := s.pending.size

/-- Whether nothing is pending. -/
def isEmpty (s : Scheduler P) : Bool := s.pending.isEmpty

/-- The priority of the pending task of a vertex. -/
def priorityOf? (s : Scheduler P) (v : VertexIndex) : Option Priority :=
  (s.pending[v]?).map (·.priority)

/-- The program of the pending task of a vertex. -/
def programOf? (s : Scheduler P) (v : VertexIndex) : Option P := (s.pending[v]?).map (·.program)

/-- Whether an entry describes the pending task of its vertex as it stands. -/
def isCurrent (pending : Std.ExtTreeMap VertexIndex (Pending P) compare) (e : Entry) : Bool :=
  match pending[e.vertex]? with
  | some p => p.priority == e.priority && p.seq == e.seq
  | none => false

/-- The pending tasks with their numbers, in order of creation. -/
def inOrder (s : Scheduler P) : List (VertexIndex × Pending P) :=
  s.pending.toList.mergeSort fun a b => decide (a.2.seq ≤ b.2.seq)

/-- The pending tasks, in order of creation. -/
def tasks (s : Scheduler P) : List (Task P) :=
  s.inOrder.map fun (vertex, p) => ⟨vertex, p.priority, p.program⟩

/-- Adds a task, or joins it to the pending one of its vertex: whether a task was added. -/
def push (s : Scheduler P) (t : Task P) : Bool × Scheduler P :=
  match s.pending[t.vertex]? with
  | some p =>
    if p.priority < t.priority then
      let pending := s.pending.insert t.vertex { p with priority := t.priority }
      let agenda := s.agenda.raise ⟨t.priority, p.seq, t.vertex⟩ pending.size (isCurrent pending)
      (false, { s with pending, agenda })
    else (false, s)
  | none =>
    (true,
      { s with
        pending := s.pending.insert t.vertex ⟨t.priority, s.nextSeq, t.program⟩
        agenda := s.agenda.add ⟨t.priority, s.nextSeq, t.vertex⟩
        nextSeq := s.nextSeq + 1 })

/-- Adds tasks in order. -/
def pushAll (s : Scheduler P) (ts : List (Task P)) : Scheduler P :=
  ts.foldl (fun s t => (s.push t).2) s

/-- Asks for a task on behalf of a worker. -/
def next (s : Scheduler P) (worker : Nat) : Handout P × Scheduler P :=
  if s.aborted then (.finished, s)
  else
    let (found, agenda) := s.agenda.take worker (isCurrent s.pending)
    match found.bind fun v => (s.pending[v]?).map (v, ·) with
    | some (v, p) =>
      (.task ⟨v, p.priority, p.program⟩,
        { s with agenda, pending := s.pending.erase v, active := s.active + 1 })
    | none => (if s.active = 0 then .finished else .blocked, { s with agenda })

/-- Notes that a task that was handed out is done, its pushes included. -/
def complete (s : Scheduler P) : Scheduler P := { s with active := s.active - 1 }

/-- Forgets the pending tasks. -/
def clear (s : Scheduler P) : Scheduler P := { s with pending := ∅, agenda := s.agenda.cleared }

/-- Ends the run: pending tasks are forgotten, and none is handed out until the next run. -/
def abort (s : Scheduler P) : Scheduler P := { s.clear with aborted := true }

/-- Forgets how the last run went. -/
def rewind (s : Scheduler P) (policy : Policy) : Scheduler P :=
  { s with policy, active := 0, aborted := false }

/-- Prepares a run under a policy. Pending tasks stay, in order of creation. -/
def prepare (s : Scheduler P) (policy : Policy) (partitions : Nat) : Scheduler P :=
  let agenda := s.inOrder.foldl
    (fun agenda (vertex, p) => agenda.add ⟨p.priority, p.seq, vertex⟩)
      (Agenda.empty policy partitions)
  { s.rewind policy with agenda }

/-- Hands out and completes tasks for one worker until none comes, at most `steps` of them. -/
def drain (s : Scheduler P) (worker : Nat) : Nat → List (Task P) × Handout P × Scheduler P
  | 0 => ([], .finished, s)
  | steps + 1 =>
    match s.next worker with
    | (.task t, s) =>
      let (ts, last, s) := s.complete.drain worker steps
      (t :: ts, last, s)
    | (last, s) => ([], last, s)

end Scheduler

end VertexPrograms
