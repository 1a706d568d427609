import VertexPrograms.Proofs.Aggregation.Boundaries
import VertexPrograms.Proofs.Engine.Counters
import VertexPrograms.Proofs.Engine.Lifecycle

/-!
# Rounds

A run by one worker is a row of rounds. In each a task is handed out, its update is run and
numbered, and the passes that are due run. What a round does to the counts, the failures, the
metrics and the pending tasks is told by a few data: which program ran and how it ended, how many
tasks it created, and what came of the passes.
-/

namespace VertexPrograms

variable {V E M P : Type}

/-! # Ending a run -/

namespace Agenda

theorem cleared_cleared (a : Agenda) : a.cleared.cleared = a.cleared := by
  cases a <;> simp [cleared]

end Agenda

namespace Scheduler

variable {s : Scheduler P}

theorem abort_abort (s : Scheduler P) : s.abort.abort = s.abort := by
  rw [abort, abort, clear, clear]
  dsimp only
  rw [Agenda.cleared_cleared]

/-- The scheduler, aborted if there is reason to. -/
def haltIf (s : Scheduler P) (stop : Bool) : Scheduler P := if stop then s.abort else s

@[simp] theorem haltIf_false (s : Scheduler P) : s.haltIf false = s := rfl

/-- What is aborted for one reason stays so for another. -/
theorem haltIf_haltIf_and (s : Scheduler P) (a b : Bool) :
    (s.haltIf a).haltIf (a && b) = s.haltIf a := by
  cases a <;> cases b <;> simp [haltIf, abort_abort]

end Scheduler

/-! # Rounds -/

/-- What came of a task that was handed out. -/
structure Round (P : Type) where
  /-- The number of the update. -/
  number : Nat
  task : Task P
  vertex : VertexId
  /-- The name of the program. -/
  program : String
  fault : Option Fault
  /-- How many of its requests created a task. -/
  created : Nat
  /-- The passes that were due. -/
  outcomes : List Registry.Outcome

namespace Round

/-- The failures of a round, in the order in which they are recorded. -/
def failures (q : Round P) : List Failure :=
  (q.fault.map fun fault => ⟨.update q.vertex q.program, fault.message, q.number⟩).toList ++
    Registry.failuresOf q.number q.outcomes

end Round

namespace Engine

variable {host : Host} {e e' : Engine V E M P} {t : Task P}

/-- How the update of a task ends when it is run alone: its fault, and what it leaves. -/
def ending (e : Engine V E M P) (t : Task P) : Option Fault × Update.State V E M P :=
  ((e.programs t.program).update (e.scopeOf t)).run (e.scopeOf t) t.program ⟨e.store.cells,
    e.globals, e.memory, #[]⟩

/-- The tasks that an update publishes, which are none if it fails. -/
def published (e : Engine V E M P) (t : Task P) : List (Task P) :=
  if (e.ending t).1.isNone then (e.ending t).2.requests.toList else []

/-- The engine after an update, with its number. -/
def updated (host : Host) (e : Engine V E M P) (t : Task P) : Engine V E M P :=
  (e.runUpdate host t).2

/-- What comes of a task that has been handed out. -/
def round (host : Host) (e : Engine V E M P) (t : Task P) : Round P where
  number := e.updateCount + 1
  task := t
  vertex := (e.scopeOf t).vertex
  program := (e.programs t.program).name
  fault := (e.ending t).1
  created := e.scheduler.created (e.published t)
  outcomes :=
    let u := e.updated host t
    (u.registry.onUpdate u.updateCount u.store.topology u.store.cells u.globals).outcomes

/-- The rounds of a run, up to the given number of steps. -/
def rounds (host : Host) : Nat → Engine V E M P → List (Round P)
  | 0, _ => []
  | steps + 1, e =>
    match e.scheduler.next 0 with
    | (.task t, scheduler) =>
      let e := { e with scheduler }
      e.round host t :: rounds host steps (e.execute host t)
    | _ => []

/-- What an update does besides what it does to the data. -/
theorem updated_eq (host : Host) (e : Engine V E M P) (t : Task P) : e.updated host t =
    { e with
      store := { e.store with cells := (e.ending t).2.cells }
      globals := (e.ending t).2.globals
      memory := (e.ending t).2.memory
      scheduler := (e.scheduler.pushAll (e.published t)).complete
      updateCount := e.updateCount + 1
      metrics := e.metrics.recordUpdate (e.programs t.program).name
        (host.duration (e.updateCount + 1)) } := by
  have hrun : ((e.programs t.program).update (e.scopeOf t)).run (e.scopeOf t) t.program
      ⟨e.store.cells, e.globals, e.memory, #[]⟩ = ((e.ending t).1, (e.ending t).2) := rfl
  simp only [updated, runUpdate, published, hrun]
  cases (e.ending t).1 <;> rfl

/-- A failure is recorded in the books, and may stop the run. -/
theorem recordFailure_eq (e : Engine V E M P) (f : Failure) : e.recordFailure f =
    { e with
      failures := e.failures ++ [f]
      metrics := { e.metrics with failures := e.metrics.failures + 1 }
      scheduler := e.scheduler.haltIf e.config.abortOnError } := rfl

/-- The failures of passes are recorded one after another, and the first one ends the run if it is
to. -/
theorem foldl_recordOutcome (count : Nat) (e : Engine V E M P) (outcomes : List Registry.Outcome) :
    outcomes.foldl (recordOutcome count) e =
      { e with
        failures := e.failures ++ Registry.failuresOf count outcomes
        metrics := { e.metrics with
          passes := outcomes.foldl (fun c o => c.add o.key 1) e.metrics.passes
          failures := e.metrics.failures + (Registry.failuresOf count outcomes).length }
        scheduler := e.scheduler.haltIf
          (e.config.abortOnError && !(Registry.failuresOf count outcomes).isEmpty) } := by
  induction outcomes generalizing e with
  | nil => simp [Registry.failuresOf]
  | cons o outcomes ih =>
    rw [List.foldl_cons, ih, recordOutcome]
    cases hfault : o.fault with
    | none =>
      have hnone : Registry.failuresOf count (o :: outcomes) =
          Registry.failuresOf count outcomes := by
        simp [Registry.failuresOf, hfault]
      rw [hnone]
      rfl
    | some fault =>
      have hsome : Registry.failuresOf count (o :: outcomes) =
          ⟨.aggregator o.key, fault.message, count⟩ :: Registry.failuresOf count outcomes := by
        simp [Registry.failuresOf, hfault]
      simp only [recordFailure_eq, hsome, Scheduler.haltIf_haltIf_and, List.append_assoc,
        List.singleton_append, List.length_cons, List.isEmpty_cons, Metrics.recordPass,
        List.foldl_cons, Bool.not_false, Bool.and_true, Nat.add_assoc, Nat.add_comm 1]

/-- What the passes come to that are due, apart from the globals. -/
theorem runDue_eq (e : Engine V E M P) : e.runDue =
    let passed := e.registry.onUpdate e.updateCount e.store.topology e.store.cells e.globals
    let fs := Registry.failuresOf e.updateCount passed.outcomes
    { e with
      registry := ⟨e.registry.entries.map fun a => a.ran (a.isDue e.updateCount).toNat⟩
      globals := passed.globals
      failures := e.failures ++ fs
      metrics := { e.metrics with
        passes := passed.outcomes.foldl (fun c o => c.add o.key 1) e.metrics.passes
        failures := e.metrics.failures + fs.length }
      scheduler := e.scheduler.haltIf (e.config.abortOnError && !fs.isEmpty) } := by
  rw [runDue, foldl_recordOutcome, Registry.entries_onUpdate]

/-- What running a task comes to, apart from the data and the globals. -/
theorem execute_eq (host : Host) (e : Engine V E M P) (t : Task P) : e.execute host t =
    let u := e.updated host t
    let q := e.round host t
    { u with
      registry := ⟨e.registry.entries.map fun a => a.ran (a.isDue q.number).toNat⟩
      globals := (u.registry.onUpdate u.updateCount u.store.topology u.store.cells
        u.globals).globals
      failures := e.failures ++ q.failures
      metrics := { u.metrics with
        passes := q.outcomes.foldl (fun c o => c.add o.key 1) e.metrics.passes
        failures := e.metrics.failures + q.failures.length }
      scheduler := u.scheduler.haltIf (e.config.abortOnError && !q.failures.isEmpty) } := by
  have hrun : e.runUpdate host t = ((e.ending t).1, e.updated host t) := rfl
  have hfaultOf : (e.round host t).fault = (e.ending t).1 := rfl
  rw [execute, hrun]
  cases hfault : (e.ending t).1 with
  | none =>
    dsimp only
    rw [runDue_eq, Round.failures, hfaultOf, hfault]
    rfl
  | some fault =>
    dsimp only
    rw [report, runDue_eq, Round.failures, hfaultOf, hfault]
    simp only [recordFailure_eq, Scheduler.haltIf_haltIf_and, Option.map_some, Option.toList_some,
      List.append_assoc, List.singleton_append, List.length_cons, List.isEmpty_cons, Bool.not_false,
      Bool.and_true, Nat.add_assoc, Nat.add_comm 1]
    rfl

section Execute

variable (host : Host) (e : Engine V E M P) (t : Task P)

theorem execute_config : (e.execute host t).config = e.config := by rw [execute_eq]; rfl

theorem execute_updateCount : (e.execute host t).updateCount = e.updateCount + 1 := by
  rw [execute_eq]; rfl

theorem execute_failures :
    (e.execute host t).failures = e.failures ++ (e.round host t).failures := by
  rw [execute_eq]

theorem execute_updates : (e.execute host t).metrics.updates =
    e.metrics.updates.add (e.round host t).program 1 := by
  rw [execute_eq]
  rfl

theorem execute_failed :
    (e.execute host t).metrics.failures = e.metrics.failures +
      (e.round host t).failures.length := by
  rw [execute_eq]

/-- A round counts its passes. -/
theorem execute_passes : (e.execute host t).metrics.passes =
    (e.round host t).outcomes.foldl (fun c o => c.add o.key 1) e.metrics.passes := by
  rw [execute_eq]

/-- A round runs the passes that are due at its number. -/
theorem execute_entries : (e.execute host t).registry.entries =
    e.registry.entries.map fun a => a.ran (a.isDue (e.updateCount + 1)).toNat := by
  rw [execute_eq]
  rfl

/-- A round publishes its tasks, and stops the run if it has failures that are to end it. -/
theorem execute_scheduler : (e.execute host t).scheduler =
    ((e.scheduler.pushAll (e.published t)).complete).haltIf
      (e.config.abortOnError && !(e.round host t).failures.isEmpty) := by
  rw [execute_eq, updated_eq]

/-- A round ends the run if it has failures and these are to end it. -/
theorem execute_aborted (h : e.scheduler.aborted = false) : (e.execute host t).scheduler.aborted =
    (e.config.abortOnError && !(e.round host t).failures.isEmpty) := by
  have hpushed : (e.scheduler.pushAll (e.published t)).complete.aborted = false :=
    (Scheduler.aborted_pushAll ..).trans h
  rw [execute_scheduler, Scheduler.haltIf]
  split
  · rename_i hstop
    exact hstop.symm
  · rename_i hgo
    rw [hpushed, Bool.eq_false_iff.mpr hgo]

/-- What a round adds to the pending tasks, unless it ends the run. -/
theorem execute_size : (e.execute host t).scheduler.size =
    if (e.config.abortOnError && !(e.round host t).failures.isEmpty) = true then 0
    else e.scheduler.size + (e.round host t).created := by
  rw [execute_scheduler, Scheduler.haltIf]
  split
  · exact Scheduler.size_abort _
  · exact Scheduler.size_pushAll ..

/-- The passes of a round are those that are due at its number. -/
theorem round_outcomes : (e.round host t).outcomes.map (·.key) =
    e.registry.due (e.updateCount + 1) :=
  Registry.outcomes_onUpdate ..

/-- An update that fails publishes nothing. -/
theorem round_created (h : (e.round host t).fault.isSome = true) :
    (e.round host t).created = 0 := by
  have hfault : (e.ending t).1.isNone = false := by simpa [round] using h
  change e.scheduler.created (e.published t) = 0
  rw [published, hfault]
  rfl

end Execute

end Engine

end VertexPrograms
