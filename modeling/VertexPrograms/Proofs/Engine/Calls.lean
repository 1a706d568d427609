import VertexPrograms.Engine.Setup
import VertexPrograms.Proofs.Graph.Representation

/-!
# The operations of an engine as data

Every operation but a run, with its arguments. What holds of all operations is stated of a call, and
proved once for each way in which operations are put together: some ask and change nothing, some are
refused in certain phases, and those that set something up leave the first phase.
-/

namespace VertexPrograms

variable {V E M P α : Type}

/-- What has a result in the end has one at first. -/
theorem ok_of_bind {β : Type} {x : Except Error α} {f : α → Except Error β} {b : β}
    (h : (x >>= f) = .ok b) : ∃ a, x = .ok a ∧ f a = .ok b := by
  cases x with
  | error e => cases h
  | ok a => exact ⟨a, rfl, h⟩

/-- A result that is mapped to a value was a value. -/
theorem ok_of_map {β : Type} {x : Except Error α} {f : α → β} {b : β} (h : f <$> x = .ok b) :
    ∃ a, x = .ok a ∧ f a = b := by
  cases x with
  | error e => cases h
  | ok a => exact ⟨a, rfl, Except.ok.inj h⟩

/-! # Growing stores -/

/-- An edge adds no identifier. -/
theorem Topology.ids_of_addEdge {t t' : Topology} {source target : VertexId} {e : EdgeIndex}
    (hr : t.addEdge source target = .ok (e, t')) : t'.ids = t.ids := by
  rw [Topology.addEdge] at hr
  split at hr
  · cases hr
  · split at hr
    · cases hr
    · split at hr
      · cases hr
      · obtain ⟨-, rfl⟩ := Prod.mk.inj (Except.ok.inj hr)
        rfl

/-- One store comes from another by insertions. -/
structure Store.Grows (g g' : Store V E) : Prop where
  valid : g.Valid → g'.Valid
  frozen : g'.frozen = g.frozen
  count : g.vertexCount ≤ g'.vertexCount
  closed : g.frozen = true → g'.topology = g.topology

namespace Store.Grows

variable {g g' g'' : Store V E}

theorem refl (g : Store V E) : g.Grows g := ⟨id, rfl, Nat.le_refl _, fun _ => rfl⟩

theorem trans (h : g.Grows g') (h' : g'.Grows g'') : g.Grows g'' :=
  ⟨h'.valid ∘ h.valid, h'.frozen.trans h.frozen, Nat.le_trans h.count h'.count,
    fun hclosed => (h'.closed (h.frozen.trans hclosed)).trans (h.closed hclosed)⟩

theorem resize {n : Nat} (hr : g.resize n = .ok g') : g.Grows g' := by
  obtain rfl : g = g' := by
    rw [Store.resize] at hr
    split at hr
    · cases hr
    · split at hr
      · cases hr
      · split at hr
        · exact Except.ok.inj hr
        · cases hr
  exact refl g

theorem addVertex {id : VertexId} {data : V} {i : VertexIndex}
    (hr : g.addVertex id data = .ok (i, g')) : g.Grows g' := by
  refine ⟨fun h => h.addVertex hr, ?_, ?_, ?_⟩ <;>
  · rw [Store.addVertex, Topology.addVertex] at hr
    split at hr
    · cases hr
    · rename_i hopen
      by_cases hid : (g.topology.indexOf? id).isSome = true
      · simp [hid] at hr
      · rw [if_neg hid] at hr
        obtain ⟨-, rfl⟩ := Prod.mk.inj (Except.ok.inj hr)
        simp [vertexCount, Topology.vertexCount, Topology.pushVertex, hopen]

theorem addEdge {source target : VertexId} {data : E} {e : EdgeIndex}
    (hr : g.addEdge source target data = .ok (e, g')) : g.Grows g' := by
  refine ⟨fun h => h.addEdge hr, ?_, ?_, ?_⟩ <;>
  · rw [Store.addEdge] at hr
    split at hr
    · cases hr
    · rename_i hopen
      cases ht : g.topology.addEdge source target with
      | error err => simp [ht] at hr
      | ok grown =>
        obtain ⟨e', topology⟩ := grown
        rw [ht] at hr
        obtain ⟨-, rfl⟩ := Prod.mk.inj (Except.ok.inj hr)
        have hids := Topology.ids_of_addEdge ht
        simp [vertexCount, Topology.vertexCount, hids, hopen]

/-- A store grows in a row of insertions if it grows in each. -/
private theorem foldlM {α β : Type} {insert : Store V E → α → Except Error (β × Store V E)}
    {l : List α} (hinsert : ∀ {g g' : Store V E} {a : α} {b : β}, insert g a = .ok (b, g') →
      g.Grows g')
    (hr : l.foldlM (fun g a => (·.2) <$> insert g a) g = .ok g') : g.Grows g' := by
  induction l generalizing g with
  | nil => exact Except.ok.inj hr ▸ refl g
  | cons a l ih =>
    rw [List.foldlM_cons] at hr
    cases hg : insert g a with
    | error e =>
      rw [hg] at hr
      cases hr
    | ok x =>
      rw [hg] at hr
      exact (hinsert hg).trans (ih hr)

theorem insertChecked {vertices : List (VertexId × V)} {edges : List (VertexId × VertexId × E)}
    (hr : g.insertChecked vertices edges = .ok g') : g.Grows g' := by
  obtain ⟨filled, hvertices, hedges⟩ := ok_of_bind hr
  exact (foldlM addVertex hvertices).trans (foldlM addEdge hedges)

theorem load {d : Description V E} (hr : g.load d = .ok g') : g.Grows g' := by
  rw [Store.load] at hr
  split at hr
  · cases hr
  · split at hr
    · cases hr
    · obtain ⟨checked, -, hr⟩ := ok_of_bind hr
      obtain ⟨edges, -, hr⟩ := ok_of_bind hr
      exact insertChecked hr

end Store.Grows

namespace Engine

/-- An operation other than a run, with its arguments. -/
inductive Call (V E P : Type) where
  | setWorkers (n : Nat)
  | setPolicy (policy : Policy)
  | setConsistency (consistency : Consistency)
  | resize (n : Nat)
  | addVertex (raw : Int) (data : V)
  | addEdge (rawSource rawTarget : Int) (data : E)
  | setGraph (d : Description V E)
  | graph
  | editData (vertex : VertexIndex → V → V) (edge : EdgeIndex → E → E)
  | addGlobal (key : String) (value : Value)
  | addConstant (key : String) (value : Value)
  | getGlobal (key : String) (wanted : Option Kind)
  | setGlobal (key : String) (value : Value)
  | useGlobals (call : Globals.Call)
  | schedule (raw : Int) (program : P) (priority : Priority)
  | scheduleAll (program : P) (priority : Priority)
  | pendingTasks
  | pendingPriority (raw : Int)
  | addAggregator (key : String) (pass : Pass V E) (interval : Nat)
  | aggregateNow (key : String)
  | aggregators
  | lastUpdateCount
  | lastFailures
  | lastMetrics
  | destroy
  | state
  | isDestroyed
  | config

namespace Call

/-- What a call answers when it is not refused. -/
def Answer : Call V E P → Type
  | setWorkers _ | setPolicy _ | setConsistency _ | resize _ | addVertex _ _ | addEdge _ _ _
  | setGraph _ | editData _ _ | addGlobal _ _ | addConstant _ _ | setGlobal _ _ | schedule _ _ _
  | scheduleAll _ _ | addAggregator _ _ _ | aggregateNow _ | destroy => Unit
  | graph => Store V E
  | getGlobal _ _ => Value
  | useGlobals call => call.Answer
  | pendingTasks | lastUpdateCount => Nat
  | pendingPriority _ => Option Priority
  | aggregators => Registry V E
  | lastFailures => List Failure
  | lastMetrics => Metrics
  | state => Phase
  | isDestroyed => Bool
  | config => Config

/-- The name by which a call is refused; none if it is never refused for the phase. -/
def name? : Call V E P → Option String
  | setWorkers _ => some "set_worker_threads"
  | setPolicy _ => some "set_scheduler_policy"
  | setConsistency _ => some "set_default_consistency"
  | resize _ => some "resize"
  | addVertex _ _ => some "add_vertex"
  | addEdge _ _ _ => some "add_edge"
  | setGraph _ => some "set_graph"
  | graph | editData _ _ => some "graph"
  | addGlobal _ _ => some "add_global"
  | addConstant _ _ => some "add_global_const"
  | getGlobal _ _ => some "get_global"
  | setGlobal _ _ => some "set_global"
  | useGlobals _ => some "globals"
  | schedule _ _ _ => some "schedule"
  | scheduleAll _ _ => some "schedule_all"
  | pendingTasks => some "pending_tasks"
  | pendingPriority _ => some "pending_priority"
  | addAggregator _ _ _ => some "add_aggregator"
  | aggregateNow _ => some "aggregate_now"
  | aggregators => some "aggregators"
  | lastUpdateCount => some "last_update_count"
  | lastFailures => some "last_failures"
  | lastMetrics => some "metrics"
  | destroy | state | isDestroyed | config => none

/-- Makes a call: its answer, and the engine after it. -/
def perform : (c : Call V E P) → Operation V E M P c.Answer
  | setWorkers n => Engine.setWorkers n
  | setPolicy policy => Engine.setPolicy policy
  | setConsistency consistency => Engine.setConsistency consistency
  | resize n => Engine.resize n
  | addVertex raw data => Engine.addVertex raw data
  | addEdge rawSource rawTarget data => Engine.addEdge rawSource rawTarget data
  | setGraph d => Engine.setGraph d
  | graph => Engine.graph
  | editData vertex edge => Engine.editData vertex edge
  | addGlobal key value => Engine.addGlobal key value
  | addConstant key value => Engine.addConstant key value
  | getGlobal key wanted => Engine.getGlobal key wanted
  | setGlobal key value => Engine.setGlobal key value
  | useGlobals call => Engine.useGlobals call
  | schedule raw program priority => Engine.schedule raw program priority
  | scheduleAll program priority => Engine.scheduleAll program priority
  | pendingTasks => Engine.pendingTasks
  | pendingPriority raw => Engine.pendingPriority raw
  | addAggregator key pass interval => Engine.addAggregator key pass interval
  | aggregateNow key => Engine.aggregateNow key
  | aggregators => Engine.aggregators
  | lastUpdateCount => Engine.lastUpdateCount
  | lastFailures => Engine.lastFailures
  | lastMetrics => Engine.lastMetrics
  | destroy => fun e => (.ok (), e.destroy)
  | state => fun e => (.ok e.phase, e)
  | isDestroyed => fun e => (.ok (e.phase == .destroyed), e)
  | config => fun e => (.ok e.config, e)

end Call

/-! # What a call does -/

/-- What a call that is made of an engine can leave behind. -/
inductive Effect (e : Engine V E M P) : Engine V E M P → Prop
  | nothing : Effect e e
  | configured (hphase : e.phase.isSetup = true) (config : Config) :
      Effect e { e with config }.markConfigured
  | built (hphase : e.phase.isSetup = true) {store : Store V E} (hgrows : e.store.Grows store) :
      Effect e { e with store }.markConfigured
  | registered (hphase : e.phase.isIdle = true) (globals : Globals) :
      Effect e { e with globals }.markConfigured
  | edited (hphase : e.phase.isLive = true) (vertex : VertexIndex → V →
      V) (edge : EdgeIndex → E → E) : Effect e { e with store := e.store.editData vertex edge }
  | used (hphase : e.phase.isLive = true) (call : Globals.Call) :
      Effect e { e with globals := (e.globals.perform call).2 }
  | scheduled (hphase : e.phase.isIdle = true) {ts : List (Task P)}
      (hts : ∀ t ∈ ts, t.vertex < e.store.vertexCount) :
      Effect e { e with scheduler := e.scheduler.pushAll ts }.markConfigured
  | aggregated (hphase : e.phase.isIdle = true) (registry : Registry V E) :
      Effect e { e with registry }.markConfigured
  | passed (hphase : e.phase.isLive = true) {key : String} (hkey : e.registry.contains key = true)
      (entries : List (Registration V E)) (globals : Globals) (metrics : Metrics) :
      Effect e { e with registry := ⟨entries⟩, globals, metrics }
  | destroyed : Effect e e.destroy

namespace Operation

variable {e : Engine V E M P} {Q : Engine V E M P → Prop}

/-- An operation that is refused in some phases need only be looked at in the others. -/
theorem keeps_during {name : String} {allowed : Phase → Bool} {op : Operation V E M P α} (h : Q e)
    (hop : allowed e.phase = true → Q (op e).2) : Q (during name allowed op e).2 := by
  rw [during]
  split
  · exact hop ‹_›
  · exact h

/-- What holds before a change, and after it if it is made, is kept. -/
theorem keeps_change {f : Engine V E M P → Except Error (Engine V E M P)} (h : Q e)
    (hf : ∀ e', f e = .ok e' → Q e') : Q (change f e).2 := by
  rw [change]
  cases hresult : f e with
  | error error => exact h
  | ok e' => exact hf e' hresult

/-- What holds of the changed engine once it is marked as configured is kept. -/
theorem keeps_setUp {f : Engine V E M P → Except Error (Engine V E M P)} (h : Q e)
    (hf : ∀ e', f e = .ok e' → Q e'.markConfigured) : Q (setUp f e).2 := by
  refine keeps_change h fun e' he' => ?_
  obtain ⟨e₁, he₁, rfl⟩ := ok_of_map he'
  exact hf e₁ he₁

/-- What holds of the engine with the changed store is kept. -/
theorem keeps_build {f : Store V E → Except Error (Store V E)} (h : Q e)
    (hf : ∀ store, f e.store = .ok store → Q { e with store }.markConfigured) :
    Q (build f e).2 := by
  refine keeps_setUp h fun e' he' => ?_
  obtain ⟨store, hstore, rfl⟩ := ok_of_map he'
  exact hf store hstore

end Operation

open Operation

/-- A raw identifier that is located has the position of a vertex. -/
theorem lt_of_locate {e : Engine V E M P} (h : e.store.Valid) {raw : Int} {v : VertexIndex}
    (hv : e.locate raw = .ok v) : v < e.store.vertexCount := by
  obtain ⟨id, -, hid⟩ := ok_of_bind hv
  exact h.topology.require_lt hid

/-- A call has one of the effects. -/
theorem Call.effect {e : Engine V E M P} (h : e.store.Valid) (c : Call V E P) :
    Effect e (c.perform e).2 := by
  cases c with
  | setWorkers n =>
    refine keeps_during .nothing fun hphase => keeps_setUp .nothing fun e' he' => ?_
    split at he'
    · cases he'
    · obtain rfl := Except.ok.inj he'
      exact .configured hphase _
  | setPolicy policy | setConsistency consistency =>
    refine keeps_during .nothing fun hphase => keeps_setUp .nothing fun e' he' => ?_
    obtain rfl := Except.ok.inj he'
    exact .configured hphase _
  | resize n =>
    refine keeps_during .nothing fun hphase => keeps_build .nothing fun _ hstore => .built hphase ?_
    exact .resize hstore
  | addVertex raw data =>
    refine keeps_during .nothing fun hphase => keeps_build .nothing fun _ hstore => .built hphase ?_
    obtain ⟨id, -, hadd⟩ := ok_of_bind hstore
    obtain ⟨⟨i, _⟩, hi, rfl⟩ := ok_of_map hadd
    exact .addVertex hi
  | addEdge rawSource rawTarget data =>
    refine keeps_during .nothing fun hphase => keeps_build .nothing fun _ hstore => .built hphase ?_
    obtain ⟨source, -, hstore⟩ := ok_of_bind hstore
    obtain ⟨target, -, hadd⟩ := ok_of_bind hstore
    obtain ⟨⟨i, _⟩, hi, rfl⟩ := ok_of_map hadd
    exact .addEdge hi
  | setGraph d =>
    refine keeps_during .nothing fun hphase => keeps_build .nothing fun _ hstore => .built hphase ?_
    exact .load hstore
  | addGlobal key value | addConstant key value =>
    refine keeps_during .nothing fun hphase => keeps_setUp .nothing fun e' he' => ?_
    obtain ⟨globals, -, rfl⟩ := ok_of_map he'
    exact .registered hphase globals
  | editData vertex edge =>
    refine keeps_during .nothing fun hphase => keeps_change .nothing fun e' he' => ?_
    obtain rfl := Except.ok.inj he'
    exact .edited hphase vertex edge
  | setGlobal key value =>
    refine keeps_during .nothing fun hphase => keeps_change .nothing fun e' he' => ?_
    obtain ⟨globals, hset, rfl⟩ := ok_of_map he'
    have hused := Effect.used hphase (.set key value)
    rwa [Globals.perform, hset] at hused
  | useGlobals call => exact keeps_during .nothing fun hphase => .used hphase call
  | schedule raw program priority =>
    refine keeps_during .nothing fun hphase => keeps_setUp .nothing fun e' he' => ?_
    obtain ⟨v, hv, he'⟩ := ok_of_bind he'
    obtain rfl := Except.ok.inj he'
    have hlt : ∀ t ∈ [(⟨v, priority, program⟩ : Task P)], t.vertex < e.store.vertexCount := by
      simpa using lt_of_locate h hv
    exact .scheduled hphase hlt
  | scheduleAll program priority =>
    refine keeps_during .nothing fun hphase => keeps_setUp .nothing fun e' he' => ?_
    split at he'
    · cases he'
    · obtain rfl := Except.ok.inj he'
      exact .scheduled hphase (by simp)
  | addAggregator key pass interval =>
    refine keeps_during .nothing fun hphase => keeps_setUp .nothing fun e' he' => ?_
    obtain ⟨registry, -, rfl⟩ := ok_of_map he'
    exact .aggregated hphase registry
  | aggregateNow key =>
    refine keeps_during .nothing fun hphase => ?_
    dsimp only
    split
    · rename_i hkey
      split
      · exact .passed hphase hkey _ _ _
      · exact .passed hphase hkey _ _ _
    · exact .nothing
  | destroy => exact .destroyed
  | state | isDestroyed | config => exact .nothing
  | _ => exact keeps_during .nothing fun _ => .nothing

end Engine

end VertexPrograms
