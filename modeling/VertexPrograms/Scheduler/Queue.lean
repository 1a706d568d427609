/-!
# Queues

A first-in, first-out queue as two lists: the elements next to leave, and those that came last, in
reverse.
-/

namespace VertexPrograms

/-- A first-in, first-out queue. -/
structure Queue (α : Type) where
  front : List α := []
  back : List α := []

namespace Queue

variable {α : Type}

/-- The elements, oldest first. -/
def toList (q : Queue α) : List α := q.front ++ q.back.reverse

/-- Adds an element at the end. -/
def push (q : Queue α) (x : α) : Queue α := { q with back := x :: q.back }

/-- The oldest element, and the others. -/
def pop? (q : Queue α) : Option (α × Queue α) :=
  match q.front with
  | x :: front => some (x, { q with front })
  | [] =>
    match q.back.reverse with
    | [] => none
    | x :: front => some (x, ⟨front, []⟩)

/-- A new element is the last to leave. -/
@[simp] theorem toList_push (q : Queue α) (x : α) : (q.push x).toList = q.toList ++ [x] := by
  simp [push, toList]

/-- Taking the oldest element splits the list of elements at its head. -/
theorem pop?_eq (q : Queue α) :
    match q.toList, q.pop? with
    | [], popped => popped = none
    | x :: xs, popped => ∃ rest, popped = some (x, rest) ∧ rest.toList = xs := by
  obtain ⟨front, back⟩ := q
  cases front with
  | cons x front => simp [toList, pop?]
  | nil =>
    simp only [toList, pop?, List.nil_append]
    cases back.reverse with
    | nil => rfl
    | cons x front => simp

end Queue

end VertexPrograms
