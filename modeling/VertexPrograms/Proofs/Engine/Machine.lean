import VertexPrograms.Engine.Run
import VertexPrograms.Proofs.Engine.Calls
import VertexPrograms.Proofs.Globals.Editing
import VertexPrograms.Proofs.Graph.Loading

/-!
# Engines changed in place

The operations of an engine once more, as code that changes one engine part by part and that, when
it fails, leaves behind whatever it has changed until then: each check and each change stands where
it is made. An engine is kept together with the threads of its passes, which it has until it is
destroyed. On the machine of an engine, the code of a call comes to the call.
-/

namespace VertexPrograms

variable {V E M P : Type}

namespace Phase

theorem isLive_of_isSetup {p : Phase} (h : p.isSetup = true) : p.isLive = true := by
  cases p <;> first | rfl | cases h

theorem isLive_of_isReady {p : Phase} (h : p.isReady = true) : p.isLive = true := by
  cases p <;> first | rfl | cases h

@[simp] theorem isLive_configure (p : Phase) : p.configure.isLive = p.isLive := by
  cases p <;> rfl

end Phase

/-! # Code for parts and code that is tried -/

namespace InPlace

variable {σ τ α : Type}

/-- Runs code for a part of a state on the whole. -/
def within (part : σ → τ) (put : τ → σ → σ) (x : InPlace τ α) : InPlace σ α :=
  ExceptT.mk fun s => ((x.on (part s)).1, put (x.on (part s)).2 s)

/-- Code on a part changes only that part. -/
@[simp] theorem on_within (part : σ → τ) (put : τ → σ → σ) (x : InPlace τ α) (s : σ) :
    (x.within part put).on s = ((x.on (part s)).1, put (x.on (part s)).2 s) := rfl

/-- Runs code and goes on in any case. -/
def tried (x : InPlace σ α) : InPlace σ (Except Error α) :=
  ExceptT.mk fun s => (.ok (x.on s).1, (x.on s).2)

/-- Code that is tried does not fail, and answers with its error. -/
@[simp] theorem on_tried (x : InPlace σ α) (s : σ) : x.tried.on s = (.ok (x.on s).1, (x.on s).2) :=
  rfl

end InPlace

/-! # Machines -/

/-- An engine as it is kept. -/
structure Machine (V E M P : Type) where
  engine : Engine V E M P
  /-- Whether there are threads for passes. -/
  pool : Bool

/-- The machine of an engine, which has threads until it is destroyed. -/
def Engine.machine (e : Engine V E M P) : Machine V E M P := ⟨e, e.phase.isLive⟩

@[simp] theorem Engine.machine_engine (e : Engine V E M P) : e.machine.engine = e := rfl

namespace Machine

open Engine

variable {α : Type}

/-- Code that changes a machine. -/
abbrev Code (V E M P α : Type) := InPlace (Machine V E M P) α

/-- Fails unless the operation may happen in the phase found. -/
def require (name : String) (allowed : Phase → Bool) : Code V E M P Unit := do
  let phase := (← get).engine.phase
  if !allowed phase then throw (.state name phase.name)

/-- Leaves the first phase. -/
def markConfigured : Code V E M P Unit :=
  modify fun m => { m with engine := m.engine.markConfigured }

/-- Code that sets something up, with the check before and the mark after it. -/
def setUp (name : String) (allowed : Phase → Bool) (x : Code V E M P Unit) : Code V E M P Unit := do
  require name allowed
  x
  markConfigured

/-- Code for the graph. -/
def inStore (x : InPlace (Store V E) α) : Code V E M P α :=
  x.within (·.engine.store) fun store m => { m with engine.store := store }

/-- Code for the globals. -/
def inGlobals (x : InPlace Globals α) : Code V E M P α :=
  x.within (·.engine.globals) fun globals m => { m with engine.globals := globals }

/-- Looks something up. -/
def ask (name : String) (f : Engine V E M P → Except Error α) : Code V E M P α := do
  require name Phase.isLive
  ofExcept (f (← get).engine)

/-- Sets the number of workers, which must be positive. Unless there is a number of their own for
passes, as many threads are made for them; `pools` gives the reason why that many cannot be made, if
there is one. -/
def setWorkers (pools : Nat → Option String) (n : Nat) : Code V E M P Unit :=
  setUp "set_worker_threads" Phase.isSetup do
    if n = 0 then throw (.invalidArgument "number of cpus must be greater than 0")
    if (← get).engine.config.syncThreads = 0 then
      match pools n with
      | some reason => throw (.construction s!"aggregation pool: {reason}")
      | none => modify fun m => { m with pool := true }
    modify fun m => { m with engine.config.workerThreads := n }

/-- Queues a task. -/
def push (t : Task P) : Code V E M P Unit :=
  modify fun m => { m with engine.scheduler := (m.engine.scheduler.push t).2 }

/-- Queues a program on a vertex. -/
def schedule (raw : Int) (program : P) (priority : Priority) : Code V E M P Unit :=
  setUp "schedule" Phase.isIdle do
    let id ← ofExcept (VertexId.ofRaw raw)
    let vertex ← ofExcept ((← get).engine.store.topology.require id)
    push ⟨vertex, priority, program⟩

/-- Queues a program on every vertex, one after another. -/
def scheduleAll (program : P) (priority : Priority) : Code V E M P Unit :=
  setUp "schedule_all" Phase.isIdle do
    if (← get).engine.store.vertexCount = 0 then throw (.state "schedule_all" "without a graph")
    forM (List.range (← get).engine.store.vertexCount) fun vertex =>
      push ⟨vertex, priority, program⟩

/-- Runs an aggregator now. -/
def aggregateNow (key : String) : Code V E M P Unit := do
  require "aggregate_now" Phase.isLive
  if !(← get).pool then throw (.state "aggregate_now" (← get).engine.phase.name)
  if !(← get).engine.registry.contains key then throw (.unknownAggregator key)
  let e := (← get).engine
  let passed := e.registry.trigger key e.store.topology e.store.cells e.globals
  modify fun m => { m with engine.globals := passed.globals }
  modify fun m => { m with engine.registry := ⟨passed.entries⟩ }
  ofExcept (triggerError key passed.outcomes)
  modify fun m => { m with engine.metrics := m.engine.metrics.recordPass key }

/-- Gives up everything, part by part. -/
def destroy : Code V E M P Unit := do
  if (← get).engine.phase ≠ .destroyed then
    modify fun m => { m with engine.scheduler := m.engine.scheduler.clear }
    modify fun m => { m with engine.registry := {} }
    modify fun m => { m with engine.globals := {} }
    modify fun m => { m with engine.store := {} }
    modify fun m => { m with pool := false }
    modify fun m => { m with engine.failures := [] }
    modify fun m => { m with engine.phase := .destroyed }

/-- The code of a call. -/
def code (pools : Nat → Option String) : (c : Call V E P) → Code V E M P c.Answer
  | .setWorkers n => setWorkers pools n
  | .setPolicy policy =>
    setUp "set_scheduler_policy" Phase.isSetup (modify fun m =>
      { m with engine.config.policy := policy })
  | .setConsistency consistency =>
    setUp "set_default_consistency" Phase.isSetup
      (modify fun m => { m with engine.config.consistency := consistency })
  | .resize n => setUp "resize" Phase.isSetup (inStore (Store.Editing.resize n))
  | .addVertex raw data =>
    setUp "add_vertex" Phase.isSetup (inStore (Store.Editing.addRawVertex (raw, data)))
  | .addEdge rawSource rawTarget data =>
    setUp "add_edge" Phase.isSetup (inStore (Store.Editing.addRawEdge (rawSource, rawTarget, data)))
  | .setGraph d => setUp "set_graph" Phase.isSetup (inStore (Store.Editing.load d))
  | .graph => ask "graph" fun e => .ok e.store
  | .editData vertex edge => do
    require "graph" Phase.isLive
    inStore (Store.Editing.editData vertex edge)
  | .addGlobal key value =>
    setUp "add_global" Phase.isIdle (inGlobals (insertEntry key value false))
  | .addConstant key value =>
    setUp "add_global_const" Phase.isIdle (inGlobals (insertEntry key value true))
  | .getGlobal key wanted => ask "get_global" fun e => e.globals.get key wanted
  | .setGlobal key value => do
    require "set_global" Phase.isLive
    inGlobals (tableCode (.set key value))
  | .useGlobals call => do
    require "globals" Phase.isLive
    inGlobals (tableCode call)
  | .schedule raw program priority => schedule raw program priority
  | .scheduleAll program priority => scheduleAll program priority
  | .pendingTasks => ask "pending_tasks" fun e => .ok e.scheduler.size
  | .pendingPriority raw => ask "pending_priority" fun e => e.scheduler.priorityOf? <$> e.locate raw
  | .addAggregator key pass interval =>
    setUp "add_aggregator" Phase.isIdle do
      if key.isEmpty then throw (.invalidArgument "aggregator key must have length of at least 1")
      modify fun m =>
        { m with
          engine.registry.entries :=
            Registry.put { key, interval, pass } m.engine.registry.entries }
  | .aggregateNow key => aggregateNow key
  | .aggregators => ask "aggregators" fun e => .ok e.registry
  | .lastUpdateCount => ask "last_update_count" fun e => .ok e.updateCount
  | .lastFailures => ask "last_failures" fun e => .ok e.failures
  | .lastMetrics => ask "metrics" fun e => .ok e.metrics
  | .destroy => destroy
  | .state => do return (← get).engine.phase
  | .isDestroyed => do return (← get).engine.phase == .destroyed
  | .config => do return (← get).engine.config

/-- What the workers of a run make of the engine on which it begins, and the reason why one of them
could not be started, if there is one. -/
abbrev Work (V E M P : Type) := Engine V E M P → Option String × Engine V E M P

/-- Lets workers run. What fails and what is measured is kept apart until the run is over. -/
def runWorkers (work : Work V E M P) : Code V E M P (List Failure × Metrics) := do
  if !(← get).pool then throw (.state "start" (← get).engine.phase.name)
  -- From here on there is a run, and an error comes too late to leave the engine as it was.
  let result := work (← get).engine
  modify fun m => { m with
    engine := { result.2 with failures := m.engine.failures, metrics := m.engine.metrics } }
  match result.1 with
  | some reason => throw (.construction s!"worker pool: {reason}")
  | none => return (result.2.failures, result.2.metrics)

/-- Prepares a run: the graph is frozen, and the counts of the last run are forgotten. -/
def prepareRun (host : Host) : Code V E M P Unit := do
  let config := (← get).engine.config
  let workers := config.resolvedWorkers host.processors
  modify fun m => { m with engine.store := m.engine.store.freeze }
  modify fun m => { m with engine.scheduler := m.engine.scheduler.rewind config.policy }
  if !Agenda.hasRoom config.policy workers then throw .capacity
  modify fun m => { m with engine.scheduler := m.engine.scheduler.prepare config.policy workers }
  modify fun m => { m with engine.updateCount := 0 }
  modify fun m => { m with engine.failures := [] }
  modify fun m => { m with engine.metrics := {} }
  modify fun m => { m with engine.phase := .running }

/-- Keeps what has failed and what was measured. If failures are to end a run, the first one is its
error. -/
def closeRun (host : Host) (failures : List Failure) (metrics : Metrics) : Code V E M P Unit := do
  modify fun m => { m with
    engine.metrics := { metrics with
      workers := m.engine.config.resolvedWorkers host.processors
      started := true
      lastUpdateCount := m.engine.updateCount } }
  modify fun m => { m with engine.failures := Failure.report failures }
  if (← get).engine.config.abortOnError then
    match (← get).engine.failures with
    | [] => return
    | first :: _ =>
      modify fun m => { m with engine.scheduler := m.engine.scheduler.clear }
      throw (.execution first.describe)

/-- Runs the pending tasks, and those they ask for, until none is left. -/
def start (host : Host) (work : Work V E M P) : Code V E M P Unit := do
  require "start" Phase.isReady
  if (← get).engine.store.vertexCount = 0 then throw (.state "start" "without a graph")
  prepareRun host
  if !canList ((← get).engine.config.resolvedWorkers host.processors) then throw .capacity
  -- Whatever came of it, the run is over before its error is passed on.
  let outcome ← (runWorkers work).tried
  modify fun m => { m with engine.phase := .completed }
  let kept ← ofExcept outcome
  closeRun host kept.1 kept.2

/-! # The code of a call is the call -/

section Comes

variable {e : Engine V E M P} {name : String} {allowed : Phase → Bool}

/-- On the machine of an engine, code comes to an operation. -/
def Comes (x : Code V E M P α) (op : Operation V E M P α) (e : Engine V E M P) : Prop :=
  x.on e.machine = ((op e).1, (op e).2.machine)

/-- A check of the phase changes nothing. -/
theorem on_require (name : String) (allowed : Phase → Bool) (m : Machine V E M P) :
    (require name allowed).on m =
      if allowed m.engine.phase then (.ok (), m)
        else (.error (.state name m.engine.phase.name), m) := by
  cases h : allowed m.engine.phase <;> simp [require, h]

@[simp] theorem on_markConfigured (e : Engine V E M P) :
    (markConfigured : Code V E M P Unit).on e.machine = (.ok (), e.markConfigured.machine) := by
  have hlive : e.markConfigured.phase.isLive = e.phase.isLive := Phase.isLive_configure e.phase
  rw [markConfigured, InPlace.on_modify, Engine.machine, Engine.machine, hlive]

/-- A check before code is a check before the operation. -/
theorem Comes.during {x : Code V E M P α} {op : Operation V E M P α}
    (h : allowed e.phase = true → Comes x op e) : Comes (require name allowed >>= fun _ => x)
    (Operation.during name allowed op) e := by
  rw [Comes, InPlace.on_bind, on_require, machine_engine, Operation.during]
  cases hphase : allowed e.phase
  · rfl
  · exact h hphase

/-- Code that changes a machine unless it fails is an operation that changes an engine unless it is
refused. -/
theorem Comes.change {x : Code V E M P Unit} {f : Engine V E M P → Except Error (Engine V E M P)}
    (h : x.on e.machine = InPlace.settled e.machine ((((), ·.machine)) <$> f e)) :
    Comes x (Operation.change f) e := by
  rw [Comes, h, Operation.change]
  cases f e <;> rfl

/-- Code that makes a change as a whole comes to the operation that sets up. -/
theorem Comes.setUp {x : Code V E M P Unit} {f : Engine V E M P → Except Error (Engine V E M P)}
    (h : allowed e.phase = true →
      x.on e.machine = InPlace.settled e.machine ((((), ·.machine)) <$> f e)) :
    Comes (setUp name allowed x) (Operation.during name allowed (Operation.setUp f)) e := by
  refine .during fun hphase => .change ?_
  rw [InPlace.on_bind, h hphase]
  cases f e with
  | error error => rfl
  | ok e' => exact on_markConfigured e'

/-- Code for the graph that comes to an operation of the graph. -/
theorem on_inStore {x : InPlace (Store V E) Unit} {r : Except Error (Store V E)}
    (h : x.on e.store = InPlace.settled e.store (((), ·) <$> r)) :
    (inStore x : Code V E M P Unit).on e.machine =
      InPlace.settled e.machine ((((), ·.machine)) <$> (fun store => { e with store }) <$> r) := by
  rw [inStore, InPlace.on_within, machine_engine, h]
  cases r <;> rfl

/-- Code for the globals that comes to an operation of the globals. -/
theorem on_inGlobals {x : InPlace Globals Unit} {r : Except Error Globals}
    (h : x.on e.globals = InPlace.settled e.globals (((), ·) <$> r)) :
    (inGlobals x : Code V E M P Unit).on e.machine =
      InPlace.settled e.machine
        ((((), ·.machine)) <$> (fun globals => { e with globals }) <$> r) := by
  rw [inGlobals, InPlace.on_within, machine_engine, h]
  cases r <;> rfl

/-- To set a variable has no effect when it is refused. -/
theorem on_tableCode_set (key : String) (value : Value) (g : Globals) :
    (tableCode (.set key value)).on g = InPlace.settled g (((), ·) <$> g.set key value) := by
  rw [on_tableCode, Globals.perform]
  cases g.set key value <;> rfl

/-- Code that makes a call on the table of an engine comes to the call. -/
theorem comes_inGlobals (call : Globals.Call) (e : Engine V E M P) :
    Comes (inGlobals (tableCode call)) (fun e =>
      ((e.globals.perform call).1, { e with globals := (e.globals.perform call).2 })) e := by
  rw [Comes, inGlobals, InPlace.on_within, machine_engine, on_tableCode]
  rfl

/-- Code on the store comes to the operation that builds. -/
theorem Comes.build {x : InPlace (Store V E) Unit} {f : Store V E → Except Error (Store V E)}
    (h : x.on e.store = InPlace.settled e.store (((), ·) <$> f e.store)) :
    Comes (Machine.setUp name allowed (inStore x))
    (Operation.during name allowed (Operation.build f)) e :=
  .setUp fun _ => on_inStore h

/-- A question comes to the operation that asks. -/
theorem Comes.ask (f : Engine V E M P → Except Error α) :
    Comes (Machine.ask name f) (Operation.during name Phase.isLive (Operation.ask f)) e := by
  refine .during fun _ => ?_
  simp only [Comes, InPlace.on_bind, InPlace.on_get, InPlace.on_ofExcept]
  rfl

end Comes

/-- Tasks are queued one after another. -/
theorem on_forM_push (ts : List VertexIndex) (f : VertexIndex → Task P) (m : Machine V E M P) :
    (forM ts fun vertex => push (f vertex)).on m =
      (.ok (), { m with engine.scheduler := m.engine.scheduler.pushAll (ts.map f) }) := by
  induction ts generalizing m with
  | nil => rfl
  | cons v ts ih =>
    rw [List.forM_cons, InPlace.on_bind, push, InPlace.on_modify]
    exact ih _

theorem comes_setWorkers {pools : Nat → Option String} {e : Engine V E M P} {n : Nat}
    (hpools : e.phase.isSetup = true → n ≠ 0 → e.config.syncThreads = 0 → pools n = none) :
    Comes (setWorkers pools n) (Engine.setWorkers n) e := by
  refine .setUp fun hphase => ?_
  have hlive : e.phase.isLive = true := Phase.isLive_of_isSetup hphase
  by_cases hn : n = 0
  · simp [hn]
  · by_cases hsync : e.config.syncThreads = 0
    · simp [hn, hsync, hpools hphase hn hsync, Engine.machine, hlive]
    · simp [hn, hsync, Engine.machine]

/-- Threads that cannot be made are asked for before anything is changed. -/
theorem on_setWorkers {pools : Nat → Option String} {e : Engine V E M P} {n : Nat} {reason : String}
    (hphase : e.phase.isSetup = true) (hn : n ≠ 0) (hsync : e.config.syncThreads = 0)
    (hpools : pools n = some reason) :
    (setWorkers pools n).on e.machine = (.error (.construction s!"aggregation pool: {reason}"),
      e.machine) := by
  simp [setWorkers, setUp, on_require, hphase, hn, hsync, hpools]

theorem comes_schedule (raw : Int) (program : P) (priority : Priority) (e : Engine V E M P) :
    Comes (schedule raw program priority) (Engine.schedule raw program priority) e := by
  refine .setUp fun _ => ?_
  rw [InPlace.on_bind, InPlace.on_ofExcept, Engine.locate]
  cases VertexId.ofRaw raw with
  | error error => rfl
  | ok id =>
    simp only [InPlace.on_bind, InPlace.on_get, InPlace.on_ofExcept, machine_engine]
    change _ = InPlace.settled e.machine (_ <$> (e.store.topology.require id >>= _))
    cases e.store.topology.require id <;> rfl

theorem comes_scheduleAll (program : P) (priority : Priority) (e : Engine V E M P) :
    Comes (scheduleAll program priority) (Engine.scheduleAll program priority) e := by
  refine .setUp fun _ => ?_
  by_cases hcount : e.store.vertexCount = 0
  · simp [hcount]
  · simp [hcount, on_forM_push, Engine.machine]

theorem comes_aggregateNow (key : String) (e : Engine V E M P) :
    Comes (aggregateNow key) (Engine.aggregateNow key) e := by
  refine .during fun hphase => ?_
  by_cases hkey : e.registry.contains key = true
  · cases hfault : triggerError key
      (e.registry.trigger key e.store.topology e.store.cells e.globals).outcomes <;>
    simp [Comes, hkey, hfault, Engine.machine, hphase]
  · simp [Comes, hkey, Engine.machine, hphase]

theorem comes_destroy (e : Engine V E M P) : Comes destroy (fun e => (.ok (), e.destroy)) e := by
  by_cases hphase : e.phase = .destroyed
  · simp [Comes, destroy, Engine.destroy, hphase]
  · simp [Comes, destroy, Engine.destroy, hphase, Engine.machine, Phase.isLive]

/-- To add a vertex in place is to add it or to change nothing. -/
theorem on_addRawVertex (raw : Int) (data : V) (g : Store V E) :
    (Store.Editing.addRawVertex (raw, data)).on g = InPlace.settled g (((), ·) <$> do
      let id ← VertexId.ofRaw raw
      (·.2) <$> g.addVertex id data) := by
  rw [Store.Editing.addRawVertex, InPlace.on_bind, InPlace.on_ofExcept]
  cases VertexId.ofRaw raw with
  | error error => rfl
  | ok id =>
    simp only [InPlace.on_bind, Store.Editing.on_addVertex]
    change _ = InPlace.settled g (_ <$> _ <$> g.addVertex id data)
    cases g.addVertex id data <;> rfl

theorem on_addRawEdge (rawSource rawTarget : Int) (data : E) (g : Store V E) :
    (Store.Editing.addRawEdge (rawSource, rawTarget, data)).on g = InPlace.settled g (((), ·) <$> do
      let source ← VertexId.ofRaw rawSource
      let target ← VertexId.ofRaw rawTarget
      (·.2) <$> g.addEdge source target data) := by
  rw [Store.Editing.addRawEdge, InPlace.on_bind, InPlace.on_ofExcept]
  cases VertexId.ofRaw rawSource with
  | error error => rfl
  | ok source =>
    simp only [InPlace.on_bind, InPlace.on_ofExcept]
    cases VertexId.ofRaw rawTarget with
    | error error => rfl
    | ok target =>
      simp only [Store.Editing.on_addEdge]
      change _ = InPlace.settled g (_ <$> _ <$> g.addEdge source target data)
      cases g.addEdge source target data <;> rfl

/-- What the code of a call makes of the machine of an engine: what the call answers and leaves
behind, unless threads cannot be made for passes. Then nothing has been changed. -/
theorem on_code {e : Engine V E M P} (h : e.store.Valid) (pools : Nat → Option String)
    (c : Call V E P) : Comes (code pools c) c.perform e ∨ ∃ n reason, pools n = some reason ∧
      (code pools c).on e.machine = (.error (.construction s!"aggregation pool: {reason}"),
        e.machine) := by
  cases c with
  | setWorkers n =>
    by_cases hpools : e.phase.isSetup = true → n ≠ 0 → e.config.syncThreads = 0 → pools n = none
    · exact .inl (comes_setWorkers hpools)
    · obtain ⟨hphase, hn, hsync, hsome⟩ : e.phase.isSetup = true ∧ n ≠ 0 ∧
          e.config.syncThreads = 0 ∧ pools n ≠ none := by
            simpa only [Classical.not_imp] using hpools
      obtain ⟨reason, hreason⟩ := Option.ne_none_iff_exists'.mp hsome
      exact .inr ⟨n, reason, hreason, on_setWorkers hphase hn hsync hreason⟩
  | setPolicy policy => exact .inl (Comes.setUp fun _ => rfl)
  | setConsistency consistency => exact .inl (Comes.setUp fun _ => rfl)
  | resize n => exact .inl (Comes.build (Store.Editing.on_resize n e.store))
  | addVertex raw data => exact .inl (Comes.build (on_addRawVertex raw data e.store))
  | addEdge rawSource rawTarget data =>
    exact .inl (Comes.build (on_addRawEdge rawSource rawTarget data e.store))
  | setGraph d => exact .inl (Comes.build (h.on_load d))
  | graph => exact .inl (Comes.ask fun e => .ok e.store)
  | addGlobal key value =>
    exact .inl (Comes.setUp fun _ => on_inGlobals (on_insertEntry key value false e.globals))
  | addConstant key value =>
    exact .inl (Comes.setUp fun _ => on_inGlobals (on_insertEntry key value true e.globals))
  | getGlobal key wanted => exact .inl (Comes.ask fun e => e.globals.get key wanted)
  | editData vertex edge => exact .inl (Comes.during fun _ => rfl)
  | setGlobal key value =>
    exact .inl (Comes.during fun _ => .change (on_inGlobals (on_tableCode_set key value e.globals)))
  | useGlobals call => exact .inl (Comes.during fun _ => comes_inGlobals call e)
  | schedule raw program priority => exact .inl (comes_schedule raw program priority e)
  | scheduleAll program priority => exact .inl (comes_scheduleAll program priority e)
  | pendingTasks => exact .inl (Comes.ask fun e => .ok e.scheduler.size)
  | pendingPriority raw => exact .inl (Comes.ask fun e => e.scheduler.priorityOf? <$> e.locate raw)
  | addAggregator key pass interval =>
    refine .inl (Comes.setUp fun _ => ?_)
    by_cases hkey : key.isEmpty = true <;> simp [Registry.register, hkey, Engine.machine]
  | aggregateNow key => exact .inl (comes_aggregateNow key e)
  | aggregators => exact .inl (Comes.ask fun e => .ok e.registry)
  | lastUpdateCount => exact .inl (Comes.ask fun e => .ok e.updateCount)
  | lastFailures => exact .inl (Comes.ask fun e => .ok e.failures)
  | lastMetrics => exact .inl (Comes.ask fun e => .ok e.metrics)
  | destroy => exact .inl (comes_destroy e)
  | state | isDestroyed | config => exact .inl rfl

/-- If all threads can be made that are asked for, the code of a call is the call. -/
theorem comes_code {e : Engine V E M P} (h : e.store.Valid) (c : Call V E P) :
    Comes (code (fun _ => none) c) c.perform e :=
  (on_code h (fun _ => none) c).resolve_right fun ⟨_, _, hnone, _⟩ => nomatch hnone

/-! # The code of a start is a start -/

section Start

variable {host : Host} {work : Work V E M P} {e after : Engine V E M P} {reason : String}

/-- Without memory for the agenda, the graph is frozen and the scheduler has forgotten the last run.
-/
theorem on_prepareRun (host : Host) (m : Machine V E M P) :
    (prepareRun host).on m =
      if Agenda.hasRoom m.engine.config.policy
        (m.engine.config.resolvedWorkers host.processors) then
        (.ok (), { m with engine := m.engine.launch host })
      else (.error .capacity, { m with engine := m.engine.collapse host }) := by
  cases hroom : Agenda.hasRoom m.engine.config.policy
    (m.engine.config.resolvedWorkers host.processors) with
  | false => simp [prepareRun, collapse, hroom]
  | true =>
    simp [prepareRun, hroom]
    rfl

/-- The code that closes a run comes to the engine that is closed. -/
theorem on_closeRun (host : Host) (after : Engine V E M P) :
    (closeRun host after.failures after.metrics).on
        { after with phase := .completed, failures := [], metrics := {} }.machine =
      ((after.close host).1, (after.close host).2.machine) := by
  cases habort : after.config.abortOnError with
  | false => simp [closeRun, Engine.close, Engine.machine, habort]
  | true =>
    cases hreport : Failure.report after.failures <;>
    simp [closeRun, Engine.close, Engine.machine, habort, hreport]

/-- A start is refused in the wrong phase, before it changes anything. -/
theorem on_start_of_not_isReady (hphase : e.phase.isReady = false) :
    (start host work).on e.machine = (.error (.state "start" e.phase.name), e.machine) := by
  simp [start, on_require, hphase]

/-- A start is refused without a graph, before it changes anything. -/
theorem on_start_of_vertexCount_eq_zero (hphase : e.phase.isReady = true)
    (hcount : e.store.vertexCount = 0) :
    (start host work).on e.machine = (.error (.state "start" "without a graph"), e.machine) := by
  simp [start, on_require, hphase, hcount]

/-- A start without memory leaves what it has changed until then. -/
theorem on_start_of_not_hasRoom (hphase : e.phase.isReady = true) (hcount : e.store.vertexCount ≠ 0)
    (hroom : e.hasRoom host = false) :
    (start host work).on e.machine = (.error .capacity, (e.collapse host).machine) := by
  have hlive := Phase.isLive_of_isReady hphase
  cases hagenda : Agenda.hasRoom e.config.policy (e.config.resolvedWorkers host.processors) with
  | false =>
    simp [start, on_require, on_prepareRun, hphase, hcount, collapse, hagenda,
      Engine.machine, hlive]
  | true =>
    have hlist : canList (e.config.resolvedWorkers host.processors) = false := by
      simpa [hasRoom, hagenda] using hroom
    have hsame : (e.launch host).config = e.config := rfl
    simp [start, on_require, on_prepareRun, hphase, hcount, collapse, hagenda, hsame, hlist,
      Engine.machine, hlive]
    rfl

/-- The workers run on the engine that has been prepared, whose books are taken out. -/
theorem on_runWorkers (work : Work V E M P) (host : Host) (e : Engine V E M P) :
    (runWorkers work).on ⟨e.launch host, true⟩ = match work (e.launch host) with
      | (none, after) =>
        (.ok (after.failures, after.metrics), ⟨{ after with failures := [], metrics := {} }, true⟩)
      | (some reason, after) => (.error (.construction s!"worker pool: {reason}"),
          ⟨{ after with failures := [], metrics := {} }, true⟩) := by
  have hfailures : (e.launch host).failures = [] := rfl
  have hmetrics : (e.launch host).metrics = {} := rfl
  rcases hwork : work (e.launch host) with ⟨_ | reason, after⟩ <;>
    simp [runWorkers, hwork, hfailures, hmetrics]

/-- A start that passes its checks finds the threads for passes. -/
theorem on_start (hphase : e.phase.isReady = true) (hcount : e.store.vertexCount ≠ 0)
    (hroom : e.hasRoom host = true) :
    (start host work).on e.machine = match work (e.launch host) with
      | (none, after) => ((after.close host).1, (after.close host).2.machine)
      | (some reason, after) => (.error (.construction s!"worker pool: {reason}"),
          { after with phase := .completed, failures := [], metrics := {} }.machine) := by
  have hmachine : e.machine = ⟨e, true⟩ := by rw [Engine.machine, Phase.isLive_of_isReady hphase]
  obtain ⟨hagenda, hlist⟩ : Agenda.hasRoom e.config.policy
      (e.config.resolvedWorkers host.processors) = true ∧
      canList (e.config.resolvedWorkers host.processors) = true := by simpa [hasRoom] using hroom
  have hsame : (e.launch host).config = e.config := rfl
  have hchecked : (start host work).on e.machine = InPlace.on (do
      let outcome ← (runWorkers work).tried
      modify fun m => { m with engine.phase := .completed }
      let kept ← ofExcept outcome
      closeRun host kept.1 kept.2) ⟨e.launch host, true⟩ := by
    simp [hmachine, start, on_require, on_prepareRun, hphase, hcount, hagenda, hsame, hlist]
  -- The threads are there, so that the run cannot be refused any more.
  rw [hchecked, InPlace.on_bind, InPlace.on_tried, on_runWorkers]
  rcases work (e.launch host) with ⟨_ | reason, after⟩
  · exact on_closeRun host after
  · rfl

end Start

end Machine

end VertexPrograms
