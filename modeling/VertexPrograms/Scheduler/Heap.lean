/-!
# Priority queues

A heap with the foremost element on top, under a comparison `before` given to each operation. Every
tree stores its size and keeps the larger subtree on the left, so that merging walks two short right
spines and the size is at hand.
-/

namespace VertexPrograms

/-- A tree of elements with its size. -/
inductive Heap (α : Type) where
  | empty
  | node (size : Nat) (top : α) (left right : Heap α)

namespace Heap

variable {α : Type} (before : α → α → Bool)

/-- The number of elements. -/
def size : Heap α → Nat
  | empty => 0
  | node n _ _ _ => n

/-- The elements, in the order of the tree. -/
def toList : Heap α → List α
  | empty => []
  | node _ x l r => x :: (l.toList ++ r.toList)

/-- Puts an element on top of two trees, the larger one on the left. -/
def join (x : α) (a b : Heap α) : Heap α :=
  if b.size ≤ a.size then node (a.size + b.size + 1) x a b else node (a.size + b.size + 1) x b a

/-- Merges the tree with top `x` over `l` and `r` into another; `rest` merges `r` into another. -/
def mergeNode (x : α) (l r : Heap α) (rest : Heap α → Heap α) : Heap α → Heap α
  | empty => join x l r
  | node n y l' r' =>
    if before y x then join y l' (mergeNode x l r rest r') else join x l (rest (node n y l' r'))

/-- Merges two trees. -/
def merge : Heap α → Heap α → Heap α
  | empty => fun b => b
  | node _ x l r => mergeNode before x l r (merge r)

/-- Adds an element. -/
def insert (x : α) (h : Heap α) : Heap α := merge before (join x empty empty) h

/-- The foremost element, and the others. -/
def pop? : Heap α → Option (α × Heap α)
  | empty => none
  | node _ x l r => some (x, merge before l r)

/-- The heap of a list's elements. -/
def ofList (xs : List α) : Heap α := xs.foldl (fun h x => h.insert before x) empty

/-- Keeps the elements with a property. -/
def filter (p : α → Bool) (h : Heap α) : Heap α := ofList before (h.toList.filter p)

/-- Pops elements until one has the property; `steps` bounds the number of pops. -/
def popUntil (p : α → Bool) : Nat → Heap α → Option α × Heap α
  | 0, h => (none, h)
  | steps + 1, h =>
    match h.pop? before with
    | none => (none, h)
    | some (x, rest) => if p x then (some x, rest) else popUntil p steps rest

end Heap

end VertexPrograms
