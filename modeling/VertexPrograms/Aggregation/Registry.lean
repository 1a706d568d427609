import VertexPrograms.Aggregation.Basic

/-!
# The registry of aggregators

Aggregators under keys, in the order in which the keys were first registered. One with a positive
interval is due whenever the number of updates reaches a multiple of it; one with interval zero only
runs when it is asked for.
-/

namespace VertexPrograms

/-- A registered aggregator. -/
structure Registration (V E : Type) where
  key : String
  /-- Number of updates from one pass to the next; 0 for none. -/
  interval : Nat
  pass : Pass V E
  /-- Number of passes since it was registered, failed ones included. -/
  runs : Nat := 0

/-- Whether a pass is due after the given number of updates. -/
def Registration.isDue {V E : Type} (r : Registration V E) (count : Nat) : Bool :=
  decide (0 < r.interval) && decide (0 < count) && count % r.interval == 0

/-- The registered aggregators, in the order in which they run. -/
structure Registry (V E : Type) where
  entries : List (Registration V E) := []

namespace Registry

variable {V E : Type}

/-- The registration under a key. -/
def find? (r : Registry V E) (key : String) : Option (Registration V E) :=
  r.entries.find? (·.key == key)

/-- Whether a key is registered. -/
def contains (r : Registry V E) (key : String) : Bool := (r.find? key).isSome

/-- The number of registered keys. -/
def size (r : Registry V E) : Nat := r.entries.length

/-- Puts a registration in the place of the one with its key, or at the end if there is none. -/
def put (new : Registration V E) : List (Registration V E) → List (Registration V E)
  | [] => [new]
  | old :: rest => if old.key == new.key then new :: rest else old :: put new rest

/-- Registers an aggregator under a key that is not empty; a key that is taken keeps its place. -/
def register (r : Registry V E) (key : String) (pass : Pass V E) (interval : Nat) :
    Except Error (Registry V E) :=
  if key.isEmpty then .error (.invalidArgument "aggregator key must have length of at least 1")
  else .ok ⟨put { key, interval, pass } r.entries⟩

/-- The keys that are due after the given number of updates, in the order in which they run. -/
def due (r : Registry V E) (count : Nat) : List String :=
  (r.entries.filter (·.isDue count)).map (·.key)

/-- The outcome of a pass under a key. -/
structure Outcome where
  key : String
  fault : Option Fault

/-- What passes leave behind: the registry with its run counts, the globals, and the outcomes in
order. -/
structure Passed (V E : Type) where
  entries : List (Registration V E)
  globals : Globals
  outcomes : List Outcome

/-- The fault in a result, if it has one. -/
def faultOf? : Except Fault Unit → Option Fault
  | .ok () => none
  | .error fault => some fault

/-- Runs the entries that are chosen, in order. -/
def runWhere (chosen : Registration V E → Bool) (t : Topology) (c : Cells V E) :
    List (Registration V E) → Globals → Passed V E
  | [], g => ⟨[], g, []⟩
  | r :: rest, g =>
    if chosen r then
      let (result, g) := r.pass t c g
      let after := runWhere chosen t c rest g
      ⟨{ r with runs := r.runs + 1 } :: after.entries, after.globals,
        ⟨r.key, faultOf? result⟩ :: after.outcomes⟩
    else
      let after := runWhere chosen t c rest g
      ⟨r :: after.entries, after.globals, after.outcomes⟩

/-- Runs what is due after the given number of updates. -/
def onUpdate (r : Registry V E) (count : Nat) (t : Topology) (c : Cells V E) (g : Globals) :
    Passed V E :=
  runWhere (·.isDue count) t c r.entries g

/-- Runs the aggregator under a key. -/
def trigger (r : Registry V E) (key : String) (t : Topology) (c : Cells V E) (g : Globals) :
    Passed V E :=
  runWhere (·.key == key) t c r.entries g

end Registry

end VertexPrograms
