import VertexPrograms.Scope.Basic

/-!
# Locks

A scope locks its centre and, above vertex level, the neighbours, so that updates whose scopes
overlap in a harmful way do not run at the same time. Every scope takes its locks in ascending order
of position.
-/

namespace VertexPrograms

/-- How a vertex is locked. -/
inductive LockMode where
  | read
  | write
  deriving DecidableEq, Repr

/-- Two locks on one vertex exclude each other unless both are for reading. -/
def LockMode.conflicts (a b : LockMode) : Bool := a == .write || b == .write

/-- A lock on a vertex. -/
structure Lock where
  vertex : VertexIndex
  mode : LockMode
  deriving DecidableEq, Repr

/-- Whether two locks cannot be held by different scopes at the same time. -/
def Lock.conflicts (a b : Lock) : Bool := a.vertex == b.vertex && a.mode.conflicts b.mode

/-- The mode in which a scope locks the neighbours of its centre, if it does. -/
def Consistency.neighbourMode? : Consistency → Option LockMode
  | .vertex => none
  | .edge => some .read
  | .full => some .write

/-- Splices the lock on the centre into the locks on the neighbours, which are ascending. -/
def Lock.splice (centre : VertexIndex) (mode : LockMode) (neighbours : List VertexIndex) :
    List Lock :=
  (neighbours.takeWhile (· < centre)).map (⟨·, mode⟩) ++ ⟨centre, .write⟩ ::
    (neighbours.dropWhile (· < centre)).map (⟨·, mode⟩)

/-- The locks of a scope, in the order in which they are taken. -/
def Scope.lockSet (s : Scope) : List Lock :=
  match s.level.neighbourMode? with
  | none => [⟨s.centre, .write⟩]
  | some mode => Lock.splice s.centre mode (s.topology.adjacentOf s.centre)

/-- The locks that scopes hold on the vertices of a graph. -/
structure LockTable where
  /-- The number of vertices. -/
  size : Nat
  held : List Lock := []
  /-- Locks that were not free when they were asked for. -/
  contended : Nat := 0

namespace LockTable

/-- Whether a lock can be taken at once. -/
def grants (t : LockTable) (lock : Lock) : Bool := t.held.all fun h => !h.conflicts lock

/-- Takes the locks of one scope in order; one that is not free is counted, and taken when it is
released. -/
def acquire (t : LockTable) (locks : List Lock) : LockTable :=
  locks.foldl
    (fun after lock =>
      { after with
        held := lock :: after.held
        contended := if t.grants lock then after.contended else after.contended + 1 })
    t

end LockTable

end VertexPrograms
