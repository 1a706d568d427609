import VertexPrograms.Engine.Basic

/-!
# Setting up and asking

Everything but running: configuration, building the graph, globals, scheduling, aggregators,
results, and the end of an engine's life. An operation that is refused by its phase or for its
arguments changes nothing. What is handed out to be looked at can be changed as well, as far as it
can be shared: the globals, and the data of the graph.
-/

namespace VertexPrograms.Engine

open Operation

variable {V E M P : Type}

/-! # Configuration -/

/-- Sets the number of workers, which must be positive. -/
def setWorkers (n : Nat) : Operation V E M P Unit :=
  during "set_worker_threads" Phase.isSetup <| setUp fun e =>
    if n = 0 then .error (.invalidArgument "number of cpus must be greater than 0")
    else .ok { e with config := { e.config with workerThreads := n } }

/-- Sets the order in which tasks are handed out. -/
def setPolicy (policy : Policy) : Operation V E M P Unit :=
  during "set_scheduler_policy" Phase.isSetup <| setUp fun e =>
    .ok { e with config := { e.config with policy } }

/-- Sets the level of programs that do not ask for one. -/
def setConsistency (consistency : Consistency) : Operation V E M P Unit :=
  during "set_default_consistency" Phase.isSetup <| setUp fun e =>
    .ok { e with config := { e.config with consistency } }

/-! # The graph -/

/-- Announces the number of vertices to come. -/
def resize (n : Nat) : Operation V E M P Unit :=
  during "resize" Phase.isSetup <| build fun g => g.resize n

/-- Adds a vertex. -/
def addVertex (raw : Int) (data : V) : Operation V E M P Unit :=
  during "add_vertex" Phase.isSetup <| build fun g => do
    let id ← VertexId.ofRaw raw
    (·.2) <$> g.addVertex id data

/-- Adds an edge. -/
def addEdge (rawSource rawTarget : Int) (data : E) : Operation V E M P Unit :=
  during "add_edge" Phase.isSetup <| build fun g => do
    let source ← VertexId.ofRaw rawSource
    let target ← VertexId.ofRaw rawTarget
    (·.2) <$> g.addEdge source target data

/-- Adds a described graph. -/
def setGraph (d : Description V E) : Operation V E M P Unit :=
  during "set_graph" Phase.isSetup <| build fun g => g.load d

/-- The graph. -/
def graph : Operation V E M P (Store V E) := during "graph" Phase.isLive <| ask fun e => .ok e.store

/-- Hands out the graph, and changes data in it, by position. -/
def editData (vertex : VertexIndex → V → V) (edge : EdgeIndex → E → E) : Operation V E M P Unit :=
  during "graph" Phase.isLive <| change fun e =>
    .ok { e with store := e.store.editData vertex edge }

/-! # Globals -/

/-- Registers a global; `name` is the operation that does so. -/
def insertGlobal (name key : String) (value : Value) (constant : Bool) : Operation V E M P Unit :=
  during name Phase.isIdle <| setUp fun e =>
    (fun globals => { e with globals }) <$> e.globals.insert key value constant

/-- Registers a variable. -/
def addGlobal (key : String) (value : Value) : Operation V E M P Unit :=
  insertGlobal "add_global" key value false

/-- Registers a constant. -/
def addConstant (key : String) (value : Value) : Operation V E M P Unit :=
  insertGlobal "add_global_const" key value true

/-- The value of a global, if it is of the kind wanted. -/
def getGlobal (key : String) (wanted : Option Kind) : Operation V E M P Value :=
  during "get_global" Phase.isLive <| ask fun e => e.globals.get key wanted

/-- Gives a variable a new value. -/
def setGlobal (key : String) (value : Value) : Operation V E M P Unit :=
  during "set_global" Phase.isLive <| change fun e =>
    (fun globals => { e with globals }) <$> e.globals.set key value

/-- Hands out the table of globals, on which a call is then made. The engine takes no notice of it:
a key may be registered in any phase but the last, and does not configure the engine. -/
def useGlobals (call : Globals.Call) : Operation V E M P call.Answer :=
  during "globals" Phase.isLive fun e =>
    let (answer, globals) := e.globals.perform call
    (answer, { e with globals })

/-! # Tasks -/

/-- The position of a raw identifier. -/
def locate (e : Engine V E M P) (raw : Int) : Except Error VertexIndex := do
  e.store.topology.require (← VertexId.ofRaw raw)

/-- Queues a program on a vertex. -/
def schedule (raw : Int) (program : P) (priority : Priority) : Operation V E M P Unit :=
  during "schedule" Phase.isIdle <| setUp fun e => do
    let vertex ← e.locate raw
    return { e with scheduler := (e.scheduler.push ⟨vertex, priority, program⟩).2 }

/-- Queues a program on every vertex, in order of position. -/
def scheduleAll (program : P) (priority : Priority) : Operation V E M P Unit :=
  during "schedule_all" Phase.isIdle <| setUp fun e =>
    if e.store.vertexCount = 0 then .error (.state "schedule_all" "without a graph")
    else
      let tasks := (List.range e.store.vertexCount).map fun vertex => ⟨vertex, priority, program⟩
      .ok { e with scheduler := e.scheduler.pushAll tasks }

/-- The number of pending tasks. -/
def pendingTasks : Operation V E M P Nat :=
  during "pending_tasks" Phase.isLive <| ask fun e => .ok e.scheduler.size

/-- The priority of the pending task of a vertex. -/
def pendingPriority (raw : Int) : Operation V E M P (Option Priority) :=
  during "pending_priority" Phase.isLive <| ask fun e => e.scheduler.priorityOf? <$> e.locate raw

/-! # Aggregators -/

/-- Registers an aggregator, or replaces the one under its key. -/
def addAggregator (key : String) (pass : Pass V E) (interval : Nat) : Operation V E M P Unit :=
  during "add_aggregator" Phase.isIdle <| setUp fun e =>
    (fun registry => { e with registry }) <$> e.registry.register key pass interval

/-- The fault among the outcomes of a triggered aggregator, as an error. -/
def triggerError (key : String) (outcomes : List Registry.Outcome) : Except Error Unit :=
  match outcomes.findSome? (·.fault) with
  | some fault => .error (.execution s!"aggregator {key}: {fault.message}")
  | none => .ok ()

/-- Runs an aggregator now. A pass that fails is not counted among the passes of the last run. -/
def aggregateNow (key : String) : Operation V E M P Unit :=
  during "aggregate_now" Phase.isLive fun e =>
    if e.registry.contains key then
      let passed := e.registry.trigger key e.store.topology e.store.cells e.globals
      let e := { e with registry := ⟨passed.entries⟩, globals := passed.globals }
      match triggerError key passed.outcomes with
      | .ok () => (.ok (), { e with metrics := e.metrics.recordPass key })
      | .error error => (.error error, e)
    else (.error (.unknownAggregator key), e)

/-- The registered aggregators. -/
def aggregators : Operation V E M P (Registry V E) :=
  during "aggregators" Phase.isLive <| ask fun e => .ok e.registry

/-! # Results -/

/-- The number of updates of the last run. -/
def lastUpdateCount : Operation V E M P Nat :=
  during "last_update_count" Phase.isLive <| ask fun e => .ok e.updateCount

/-- The failures of the last run. -/
def lastFailures : Operation V E M P (List Failure) :=
  during "last_failures" Phase.isLive <| ask fun e => .ok e.failures

/-- The metrics of the last run. -/
def lastMetrics : Operation V E M P Metrics :=
  during "metrics" Phase.isLive <| ask fun e => .ok e.metrics

/-- Gives up the graph, the globals, the aggregators and the pending tasks. A second time has no
effect. -/
def destroy (e : Engine V E M P) : Engine V E M P :=
  if e.phase = .destroyed then e
  else
    { e with
      phase := .destroyed
      store := {}
      globals := {}
      registry := {}
      scheduler := e.scheduler.clear
      failures := [] }

end VertexPrograms.Engine
