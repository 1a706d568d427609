import VertexPrograms.Scheduler.Basic

/-!
# The roster, a plain scheduler

A roster is what a scheduler comes to when nothing is done for speed: the pending tasks in one list,
oldest first, and for every hand-out a search of that list. It has no heap, no numbers of tasks and
no stale entries. Both answer the same operations, and a sequence of operations is run on either to
get its replies.
-/

namespace VertexPrograms

/-- The element of a list that a policy hands out next, the list being in order of creation: the
first one; the first one that no other exceeds in priority; or the first one of the worker's own
share, else of the share after it, and so on round. -/
def Policy.choose? {α : Type} (policy : Policy) (shares worker : Nat) (vertex : α → VertexIndex)
    (priority : α → Priority) (all : List α) : Option α :=
  match policy with
  | .fifo => all.head?
  | .priority => all.find? fun x => all.all fun y => decide (priority y ≤ priority x)
  | .roundRobin => (List.range shares).findSome? fun offset =>
      all.find? fun x => vertex x % shares == (worker + offset) % shares

/-- The pending tasks in a list, and the progress of a run. -/
structure Roster (P : Type) where
  policy : Policy
  /-- The number of shares of the vertices, which is positive. -/
  shares : Nat
  /-- The pending tasks, oldest first. -/
  tasks : List (Task P) := []
  /-- Number of tasks handed out and not completed. -/
  active : Nat := 0
  aborted : Bool := false

namespace Roster

variable {P : Type}

/-- A roster with nothing pending. -/
def new (policy : Policy) (partitions : Nat) : Roster P := { policy, shares := max partitions 1 }

/-- The pending task of a vertex. -/
def taskOf? (r : Roster P) (v : VertexIndex) : Option (Task P) := r.tasks.find? (·.vertex == v)

/-- The tasks with the priority of one vertex raised; the task stays where it is, with its program.
-/
def raise (v : VertexIndex) (p : Priority) (tasks : List (Task P)) : List (Task P) :=
  tasks.map fun u => if u.vertex = v then { u with priority := u.priority.max p } else u

/-- Adds a task at the end, or raises the one that is listed for its vertex: whether a task was
added. -/
def push (r : Roster P) (t : Task P) : Bool × Roster P :=
  match r.taskOf? t.vertex with
  | some _ => (false, { r with tasks := raise t.vertex t.priority r.tasks })
  | none => (true, { r with tasks := r.tasks ++ [t] })

/-- Asks for a task on behalf of a worker; the task that is handed out leaves the list. -/
def next (r : Roster P) (worker : Nat) : Handout P × Roster P :=
  if r.aborted then (.finished, r)
  else
    match r.policy.choose? r.shares worker Task.vertex Task.priority r.tasks with
    | some t =>
      (.task t, { r with tasks := r.tasks.filter (·.vertex != t.vertex), active := r.active + 1 })
    | none => (if r.active = 0 then .finished else .blocked, r)

/-- Notes that a task that was handed out is done. -/
def complete (r : Roster P) : Roster P := { r with active := r.active - 1 }

/-- Forgets the pending tasks. -/
def clear (r : Roster P) : Roster P := { r with tasks := [] }

/-- Ends the run. -/
def abort (r : Roster P) : Roster P := { r.clear with aborted := true }

/-- Prepares a run: only the list stays as it is. -/
def prepare (r : Roster P) (policy : Policy) (partitions : Nat) : Roster P :=
  { policy, shares := max partitions 1, tasks := r.tasks }

end Roster

namespace Scheduler

variable {P : Type}

/-- A call that can be made on a scheduler. -/
inductive Operation (P : Type) where
  | push (t : Task P)
  | next (worker : Nat)
  | complete
  | clear
  | abort
  | prepare (policy : Policy) (partitions : Nat)
  | size
  | isEmpty
  | priorityOf (v : VertexIndex)
  | programOf (v : VertexIndex)
  | policy

/-- What a call on a scheduler answers. -/
inductive Reply (P : Type) where
  | none
  | added (new : Bool)
  | handout (h : Handout P)
  | size (n : Nat)
  | isEmpty (empty : Bool)
  | priority (p : Option Priority)
  | program (p : Option P)
  | policy (p : Policy)

/-- Makes a call: its answer, and the scheduler after it. -/
def perform (s : Scheduler P) : Operation P → Reply P × Scheduler P
  | .push t => (.added (s.push t).1, (s.push t).2)
  | .next worker => (.handout (s.next worker).1, (s.next worker).2)
  | .complete => (.none, s.complete)
  | .clear => (.none, s.clear)
  | .abort => (.none, s.abort)
  | .prepare policy partitions => (.none, s.prepare policy partitions)
  | .size => (.size s.size, s)
  | .isEmpty => (.isEmpty s.isEmpty, s)
  | .priorityOf v => (.priority (s.priorityOf? v), s)
  | .programOf v => (.program (s.programOf? v), s)
  | .policy => (.policy s.policy, s)

/-- Makes calls in order: the scheduler after them. -/
def after (s : Scheduler P) (ops : List (Operation P)) : Scheduler P :=
  ops.foldl (fun s op => (s.perform op).2) s

/-- Makes calls in order: their answers. -/
def replies (s : Scheduler P) : List (Operation P) → List (Reply P)
  | [] => []
  | op :: ops => (s.perform op).1 :: (s.perform op).2.replies ops

end Scheduler

namespace Roster

variable {P : Type}

/-- Makes a call: its answer, and the roster after it. -/
def perform (r : Roster P) : Scheduler.Operation P → Scheduler.Reply P × Roster P
  | .push t => (.added (r.push t).1, (r.push t).2)
  | .next worker => (.handout (r.next worker).1, (r.next worker).2)
  | .complete => (.none, r.complete)
  | .clear => (.none, r.clear)
  | .abort => (.none, r.abort)
  | .prepare policy partitions => (.none, r.prepare policy partitions)
  | .size => (.size r.tasks.length, r)
  | .isEmpty => (.isEmpty r.tasks.isEmpty, r)
  | .priorityOf v => (.priority ((r.taskOf? v).map (·.priority)), r)
  | .programOf v => (.program ((r.taskOf? v).map (·.program)), r)
  | .policy => (.policy r.policy, r)

/-- Makes calls in order: their answers. -/
def replies (r : Roster P) : List (Scheduler.Operation P) → List (Scheduler.Reply P)
  | [] => []
  | op :: ops => (r.perform op).1 :: (r.perform op).2.replies ops

end Roster

/-- Choosing commutes with a change of what the elements carry besides vertex and priority. -/
theorem Policy.choose?_map {α β : Type} (policy : Policy) (shares worker : Nat) (f : β → α)
    (vertex : α → VertexIndex) (priority : α → Priority) (all : List β) :
    policy.choose? shares worker vertex priority (all.map f) =
      (policy.choose? shares worker (vertex ∘ f) (priority ∘ f) all).map f := by
  cases policy with
  | fifo => exact List.head?_map
  | priority =>
    simp only [choose?, List.find?_map, List.all_map]
    rfl
  | roundRobin =>
    simp only [choose?, List.find?_map]
    exact List.map_findSome?.symm

/-- What is chosen is one of the elements. -/
theorem Policy.mem_of_choose?_eq_some {α : Type} (policy : Policy) {shares worker : Nat}
    {vertex : α → VertexIndex} {priority : α → Priority} {all : List α} {x : α}
    (h : policy.choose? shares worker vertex priority all = some x) : x ∈ all := by
  cases policy with
  | fifo => exact List.mem_of_head? h
  | priority => exact List.mem_of_find?_eq_some h
  | roundRobin =>
    obtain ⟨_, _, hx⟩ := List.exists_of_findSome?_eq_some h
    exact List.mem_of_find?_eq_some hx

end VertexPrograms
