import VertexPrograms.Engine.Basic

/-!
# Runs

A run hands out pending tasks one after another until none is left or the scheduler is aborted. Each
step runs one update, publishes the tasks it asked for if it ended well, and then runs the
aggregators that are due. A run need not end, so it is given a bound on its number of steps.
-/

namespace VertexPrograms

/-- What a run depends on besides the engine. -/
structure Host where
  /-- The number of workers a configuration without a number stands for. -/
  processors : Nat := 1
  /-- How many nanoseconds each update takes. -/
  duration : Nat → Nat := fun _ => 0

namespace Engine

variable {V E M P : Type}

/-- Records a failure, and stops handing out tasks if failures are to end the run. -/
def recordFailure (e : Engine V E M P) (f : Failure) : Engine V E M P :=
  { e with
    failures := e.failures ++ [f]
    metrics := e.metrics.recordFailures 1
    scheduler := if e.config.abortOnError then e.scheduler.abort else e.scheduler }

/-- Records a pass that was due after an update. -/
def recordOutcome (count : Nat) (e : Engine V E M P) (o : Registry.Outcome) : Engine V E M P :=
  let e := { e with metrics := e.metrics.recordPass o.key }
  match o.fault with
  | none => e
  | some fault => e.recordFailure ⟨.aggregator o.key, fault.message, count⟩

/-- Runs the aggregators that are due now. -/
def runDue (e : Engine V E M P) : Engine V E M P :=
  let passed := e.registry.onUpdate e.updateCount e.store.topology e.store.cells e.globals
  let e := { e with registry := ⟨passed.entries⟩, globals := passed.globals }
  passed.outcomes.foldl (recordOutcome e.updateCount) e

/-- The scope in which a task runs. -/
def scopeOf (e : Engine V E M P) (t : Task P) : Scope :=
  { topology := e.store.topology
    centre := t.vertex
    level := (e.programs t.program).level.getD e.config.consistency }

/-- Runs the update of a task that has been handed out: its fault, and the engine with what it did.
The store is without its data meanwhile, so that the update changes the one copy there is. -/
def runUpdate (host : Host) (e : Engine V E M P) (t : Task P) : Option Fault × Engine V E M P :=
  let program := e.programs t.program
  let scope := e.scopeOf t
  let before : Update.State V E M P := ⟨e.store.cells, e.globals, e.memory, #[]⟩
  let e := { e with store := { e.store with cells := {} } }
  let (fault, after) := (program.update scope).run scope t.program before
  let published := if fault.isNone then e.scheduler.pushAll after.requests.toList else e.scheduler
  let count := e.updateCount + 1
  (fault,
    { e with
      store := { e.store with cells := after.cells }
      globals := after.globals
      memory := after.memory
      scheduler := published.complete
      updateCount := count
      metrics := e.metrics.recordUpdate program.name (host.duration count) })

/-- Records that the update of a task has failed, if it has. -/
def report (e : Engine V E M P) (t : Task P) : Option Fault → Engine V E M P
  | none => e
  | some fault =>
    let source : FailureSource := .update (e.scopeOf t).vertex (e.programs t.program).name
    e.recordFailure ⟨source, fault.message, e.updateCount⟩

/-- Runs a task that has been handed out, with everything that follows from it. -/
def execute (host : Host) (e : Engine V E M P) (t : Task P) : Engine V E M P :=
  let (fault, e) := e.runUpdate host t
  (e.report t fault).runDue

/-- How far a run has come. -/
inductive Progress (V E M P : Type) where
  | more (e : Engine V E M P)
  | finished (e : Engine V E M P)

/-- One step of a run. -/
def step (host : Host) (e : Engine V E M P) : Progress V E M P :=
  match e.scheduler.next 0 with
  | (.task t, scheduler) => .more ({ e with scheduler }.execute host t)
  | (_, scheduler) => .finished { e with scheduler }

/-- Steps until the run is over; none if that takes more than the given number of steps. -/
def iterate (host : Host) : Nat → Engine V E M P → Option (Engine V E M P)
  | 0, _ => none
  | steps + 1, e =>
    match e.step host with
    | .finished e => some e
    | .more e => iterate host steps e

/-- Prepares a run: the graph is frozen, and the counts of the last run are forgotten. -/
def launch (host : Host) (e : Engine V E M P) : Engine V E M P :=
  { e with
    phase := .running
    store := e.store.freeze
    scheduler := e.scheduler.prepare e.config.policy (e.config.resolvedWorkers host.processors)
    updateCount := 0
    failures := []
    metrics := {} }

/-- Whether memory, of less than `2 ^ 63` bytes, has room for a list of so many workers. -/
def canList (workers : Nat) : Bool := 24 * workers < 0x8000000000000000

/-- Whether memory has room for the workers of a run and for their agenda. -/
def hasRoom (host : Host) (e : Engine V E M P) : Bool :=
  let workers := e.config.resolvedWorkers host.processors
  Agenda.hasRoom e.config.policy workers && canList workers

/-- What a start leaves that finds no memory. If there is none for the agenda, the graph is frozen
and the scheduler has forgotten the last run; if there is none for the list of the workers, the run
has begun. -/
def collapse (host : Host) (e : Engine V E M P) : Engine V E M P :=
  if Agenda.hasRoom e.config.policy (e.config.resolvedWorkers host.processors) then e.launch host
  else { e with store := e.store.freeze, scheduler := e.scheduler.rewind e.config.policy }

/-- Closes a run that is over. If failures are to end a run, the first one is its error. -/
def close (host : Host) (e : Engine V E M P) : Except Error Unit × Engine V E M P :=
  let e :=
    { e with
      phase := .completed
      failures := Failure.report e.failures
      metrics := { e.metrics with
        workers := e.config.resolvedWorkers host.processors
        started := true
        lastUpdateCount := e.updateCount } }
  match e.config.abortOnError, e.failures with
  | true, first :: _ =>
    (.error (.execution first.describe), { e with scheduler := e.scheduler.clear })
  | _, _ => (.ok (), e)

/-- Runs the pending tasks, and those they ask for, until none is left. Answers nothing if that
takes more than the given number of steps. If there is no memory for the run, it panics and leaves
what it has changed until then. -/
def start (host : Host) (steps : Nat) (e : Engine V E M P) :
    Option (Except Error Unit × Engine V E M P) :=
  if !e.phase.isReady then some (.error (.state "start" e.phase.name), e)
  else if e.store.vertexCount = 0 then some (.error (.state "start" "without a graph"), e)
  else if !e.hasRoom host then some (.error .capacity, e.collapse host)
  else (iterate host steps (e.launch host)).map (close host)

end Engine

end VertexPrograms
