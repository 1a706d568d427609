import Std.Data.ExtTreeMap

/-!
# Metrics

What is counted during a run: updates by program, passes by aggregator, failures, and the average
duration of an update by program. Several workers count apart and their counts are merged at the
end.
-/

namespace VertexPrograms

/-- A count for each name; a name that is absent counts zero. -/
abbrev Counter := Std.ExtTreeMap String Nat compare

/-- The count under a name. -/
def Counter.count (c : Counter) (name : String) : Nat := c.getD name 0

/-- Adds to the count under a name. -/
def Counter.add (c : Counter) (name : String) (n : Nat) : Counter :=
  c.insert name (c.count name + n)

/-- Adds all counts of another counter. -/
def Counter.merge (c other : Counter) : Counter :=
  other.toList.foldl (fun c (name, n) => c.add name n) c

/-- The counts of a run. -/
structure Metrics where
  /-- Updates by the name of their program. -/
  updates : Counter := ∅
  /-- Average duration of an update in nanoseconds, by the name of its program. -/
  averages : Std.ExtTreeMap String Nat compare := ∅
  /-- Passes by the key of their aggregator. -/
  passes : Counter := ∅
  /-- Failed updates and failed passes. -/
  failures : Nat := 0
  /-- Locks that were not free when a scope asked for them. -/
  contention : Nat := 0
  /-- Workers of the last run. -/
  workers : Nat := 0
  /-- Whether there was a run. -/
  started : Bool := false
  /-- Updates of the last run. -/
  lastUpdateCount : Nat := 0

namespace Metrics

/-- The average duration recorded for a program. -/
def average (m : Metrics) (program : String) : Nat := m.averages.getD program 0

/-- The number of updates of all programs. -/
def totalUpdates (m : Metrics) : Nat :=
  m.updates.toList.foldl (fun total entry => total + entry.2) 0

/-- The mean after a duration has become the last of `count` durations, computed in doubles and cut
to whole nanoseconds. The first duration is its own mean. -/
def nextAverage (previous duration count : Nat) : Nat :=
  if count = 1 then duration
  else
    let before := Float.ofNat previous
    (before + (Float.ofNat duration - before) / Float.ofNat count).toUInt64.toNat

/-- Records an update of a program and how many nanoseconds it took. -/
def recordUpdate (m : Metrics) (program : String) (nanoseconds : Nat) : Metrics :=
  let updates := m.updates.add program 1
  let average := nextAverage (m.average program) nanoseconds (updates.count program)
  { m with updates, averages := m.averages.insert program average }

/-- Records a pass of an aggregator. -/
def recordPass (m : Metrics) (key : String) : Metrics := { m with passes := m.passes.add key 1 }

/-- Records failures. -/
def recordFailures (m : Metrics) (n : Nat) : Metrics := { m with failures := m.failures + n }

/-- The mean of two means, weighted by the numbers of durations behind them. -/
def weightedAverage (ours before theirs count : Nat) : Nat :=
  ((Float.ofNat ours * Float.ofNat before + Float.ofNat theirs * Float.ofNat count) /
    Float.ofNat (max (before + count) 1)).toUInt64.toNat

/-- Merges the updates of one program of another metrics object. -/
def mergeProgram (other m : Metrics) (entry : String × Nat) : Metrics :=
  let (program, count) := entry
  let average := weightedAverage (m.average program) (m.updates.count program)
    (other.average program) count
  { m with
    updates := m.updates.add program count
    averages := m.averages.insert program average }

/-- Adds what another worker has counted. -/
def merge (m other : Metrics) : Metrics :=
  let merged := other.updates.toList.foldl (mergeProgram other) m
  { merged with
    passes := m.passes.merge other.passes
    failures := m.failures + other.failures }

end Metrics

end VertexPrograms
