import VertexPrograms.Proofs.Aggregation.Summaries
import VertexPrograms.Proofs.Engine.Watching
import VertexPrograms.Proofs.Synthetic.Building

/-!
# The components of a synthetic graph

A synthetic graph is connected and its vertices carry their numbers as labels at first, so a run
ends with zero everywhere. The aggregator, which counts the vertices with this label, can publish
whenever it is due, and after the run it counts all vertices. One vertex only has its own number as
its label then.
-/

namespace VertexPrograms

open Registry (Harmless)

/-! # Counting passes do no harm -/

namespace Globals

variable {g g' : Globals} {key : String} {value : Value}

/-- A number can be published under the key, which is not the empty one. -/
structure Countable (key : String) (g : Globals) : Prop where
  named : g.contains "" = false
  takes : g.Takes key .integer

/-- So it can after a number has been published. -/
theorem Holds.countable (h : Holds g key value g') (hkey : key ≠ "") (hkind : value.kind = .integer)
    (hg : g.Countable key) : g'.Countable key where
  named := by
    have hentry : g'.entry "" = g.entry "" := h.others "" hkey.symm
    rw [Bool.eq_false_iff, ne_eq, contains_eq_true, hentry, ← contains_eq_true, hg.named]
    exact Bool.false_ne_true
  takes e he := by
    rw [h.target] at he
    obtain rfl := Except.ok.inj he
    exact ⟨rfl, .inr hkind⟩

end Globals

/-- A count under a key that takes it is harmless. -/
theorem harmless_vertexCount {V E : Type} (target : String) (htarget : target ≠ "") (key : String)
    (property : V → Bool) :
    Harmless (Globals.Countable target)
    [(key, (vertexCount target property : Aggregator V E Int64).pass)] := by
  rintro x hx t c g hg
  obtain rfl := List.mem_singleton.mp hx
  have hdivided := (vertexCount target property : Aggregator V E Int64).divided_pass ⟨t, c, false⟩ g
  obtain ⟨value, g', hkind, hpass, hholds⟩ :=
    (Aggregator.publishes_vertexCount target property).written htarget hg.takes hdivided
  exact ⟨g', hpass, hholds.countable htarget hkind hg⟩

namespace Engine

variable {V E M P : Type} {I : Globals → Prop} {key : String} {pass : Pass V E} {e : Engine V E M P}

/-- A harmless aggregator that is asked for runs, and only the globals and counts of passes change.
-/
theorem Watched.aggregateNow (h : e.Watched I [(key, pass)]) (hpass : Harmless I [(key, pass)])
    (hlive : e.phase.isLive = true) : ∃ e', Engine.aggregateNow key e = (.ok (), e') ∧
    e'.alone = e.alone ∧
      pass e.store.topology e.store.cells e.globals = (.ok (), e'.globals) ∧
      e'.Watched I [(key, pass)] := by
  obtain ⟨g', hok, hI⟩ :=
    hpass (key, pass) List.mem_cons_self e.store.topology e.store.cells e.globals h.globals
  obtain ⟨r, hr, hkey⟩ : ∃ r, e.registry.entries = [r] ∧ (r.key, r.pass) = (key, pass) :=
    List.map_eq_singleton_iff.mp h.registered
  obtain ⟨rfl, rfl⟩ := Prod.mk.inj hkey
  have hcontains : e.registry.contains r.key = true := by
    simp [Registry.contains, Registry.find?, hr]
  have hpassed : e.registry.trigger r.key e.store.topology e.store.cells e.globals =
      ⟨[{ r with runs := r.runs + 1 }], g', [⟨r.key, none⟩]⟩ := by
    have hok : r.pass e.store.topology e.store.cells e.globals = (.ok (), g') := hok
    rw [Registry.trigger, hr, Registry.runWhere, if_pos (beq_self_eq_true r.key), hok]
    rfl
  have hrun : Engine.aggregateNow r.key e = (.ok (), { e with
      registry := ⟨[{ r with runs := r.runs + 1 }]⟩
      globals := g'
      metrics := e.metrics.recordPass r.key }) := by
    rw [Engine.aggregateNow, Operation.during, if_pos hlive, if_pos hcontains, hpassed]
    rfl
  exact ⟨_, hrun, rfl, hok, rfl, hI, h.failures⟩

end Engine

namespace Setting

variable {V : Type} {s : Setting}

/-! # Results -/

/-- The vertices that carry their own number are counted. -/
theorem countOwnLabels_eq {store : Store UInt32 Unit} {labelOf : VertexId → UInt32}
    (h : ∀ id ∈ store.topology.ids.toList, store.vertexData id = .ok (labelOf id)) :
    countOwnLabels store = .ok (store.topology.ids.toList.countP fun id => labelOf id = id) := by
  have hfold (ids : List VertexId) (hids : ∀ id ∈ ids, store.vertexData id = .ok (labelOf id))
      (n : Nat) : ids.foldlM (fun n id => (fun label => if label = id then n + 1 else n) <$>
        store.vertexData id) n = .ok (n + ids.countP fun id => labelOf id = id) := by
    induction ids generalizing n with
    | nil => rfl
    | cons id ids ih =>
      obtain ⟨hid, hrest⟩ := List.forall_mem_cons.mp hids
      have hnext := ih hrest (if labelOf id = id then n + 1 else n)
      rw [List.foldlM_cons, hid, List.countP_cons]
      refine hnext.trans (congrArg Except.ok ?_)
      by_cases heq : labelOf id = id
      · simp only [heq, if_true, decide_true]
        omega
      · simp only [heq, if_false, decide_false, Bool.false_eq_true, Nat.add_zero]
  exact (hfold _ h 0).trans (by rw [Nat.zero_add])

/-- All vertices have the label zero, and the identifiers are the numbers from zero on. -/
structure Uniform (n : Nat) (store : Store UInt32 Unit) : Prop where
  valid : store.Valid
  nonempty : 0 < n
  bounded : n ≤ 2 ^ 32
  ids : store.topology.ids.toList = (List.range n).map UInt32.ofNat
  labels : ∀ v < n, store.cells.vertices[v]? = some 0

namespace Uniform

variable {n : Nat} {store : Store UInt32 Unit}

theorem vertexCount_eq (h : Uniform n store) : store.vertexCount = n := by
  have hlength := congrArg List.length h.ids
  simpa [Store.vertexCount, Topology.vertexCount] using hlength

/-- One vertex has its own number as its label. -/
theorem countOwnLabels (h : Uniform n store) : countOwnLabels store = .ok 1 := by
  have hdata : ∀ id ∈ store.topology.ids.toList, store.vertexData id = .ok 0 := by
    intro id hid
    obtain ⟨i, hi⟩ := List.mem_iff_getElem?.mp hid
    have hlt : i < n := by
      rw [h.ids] at hi
      simpa using (List.getElem?_eq_some_iff.mp hi).1
    have hfound : store.topology.require id = .ok i :=
      h.valid.topology.require_eq (by simpa using hi)
    simp only [Store.vertexData, hfound, h.labels i hlt]
  have hmem : (0 : VertexId) ∈ store.topology.ids.toList := by
    rw [h.ids]
    exact List.mem_map.mpr ⟨0, List.mem_range.mpr h.nonempty, rfl⟩
  have hnodup : store.topology.ids.toList.Nodup := h.ids ▸ nodup_map_ofNat h.bounded
  have hcount : store.topology.ids.toList.countP (fun id => (0 : UInt32) = id) = 1 := by
    rw [← List.count_eq_one_of_mem hnodup hmem, List.count]
    exact List.countP_congr fun id _ => by rw [decide_eq_true_iff, beq_iff_eq, eq_comm]
  rw [countOwnLabels_eq hdata, hcount]

/-- All vertices have the label of the first. -/
theorem countP_eq (h : Uniform n store) : store.vertexList.countP (fun x => x.2 == 0) = n := by
  have hall : ∀ x ∈ store.vertexList, (x.2 == 0) = true := by
    intro x hx
    obtain ⟨i, hi⟩ := List.mem_iff_getElem?.mp (List.of_mem_zip hx).2
    have hlt : i < n := by
      rw [← h.vertexCount_eq, ← h.valid.vertices_size]
      simpa using (List.getElem?_eq_some_iff.mp hi).1
    have hlabel := h.labels i hlt
    rw [← Array.getElem?_toList, hi] at hlabel
    rw [Option.some.inj hlabel]
    rfl
  rw [List.countP_eq_length.mpr hall, h.valid.length_vertexList, h.vertexCount_eq]

/-- A count of the vertices with the label zero publishes the number of all vertices. -/
theorem exists_value (h : Uniform n store) {target : String} {table table' : Globals}
    (hnamed : table.contains "" = false)
    (hpass : (VertexPrograms.vertexCount target (· == 0) : Aggregator UInt32 Unit Int64).pass
      store.topology store.cells table = (.ok (), table')) :
        ∃ m : Int64, table'.value target = .ok (.integer m) ∧ m.toInt = n := by
  have hdivided :=
    (VertexPrograms.vertexCount target (· == 0) : Aggregator UInt32 Unit Int64).divided_pass
      store table
  rw [hpass] at hdivided
  obtain ⟨-, m, hvalue, hm⟩ :=
    Aggregator.value_of_countIf (fun data => .ok (data == 0)) h.valid hnamed hdivided rfl
  exact ⟨m, hvalue, hm.trans (congrArg Int.ofNat h.countP_eq)⟩

/-- What is found when all vertices have the label zero and their number has been published. -/
theorem componentsFound {e : SoleEngine UInt32} (h : Uniform n e.store)
    (hlive : e.phase.isLive = true) {m : Int64}
    (hvalue : e.globals.value "in_first_component" = .ok (.integer m)) :
    componentsFound e = .ok (.components 1 m) := by
  have hgraph : ask Engine.graph e = .ok e.store := by
    rw [ask, Engine.graph, Engine.Operation.during, if_pos hlive]
    rfl
  have hglobal : ask (Engine.getGlobal "in_first_component" (some .integer)) e =
      .ok (.integer m) := by
    rw [Globals.value] at hvalue
    rw [ask, Engine.getGlobal, Engine.Operation.during, if_pos hlive, Engine.Operation.ask,
      Globals.get]
    cases hentry : e.globals.entry "in_first_component" with
    | error error => rw [hentry] at hvalue; cases hvalue
    | ok entry =>
      rw [hentry] at hvalue
      have hinteger : entry.value = .integer m := Except.ok.inj hvalue
      simp only [hinteger]
      rfl
  rw [Setting.componentsFound, hgraph]
  change (Setting.countOwnLabels e.store >>= _) = _
  rw [h.countOwnLabels]
  change (ask (Engine.getGlobal "in_first_component" (some .integer)) e >>= _) = _
  rw [hglobal]
  rfl

end Uniform

/-- The labels at the end of a run on a connected graph whose vertices had their numbers as labels.
-/
theorem Filled.uniform {g : Store UInt32 Unit} {e e' : SoleEngine UInt32}
    (hg : s.Filled UInt32.ofNat g) (hsize : 0 < s.vertexCount) (hbounded : s.vertexCount ≤ 2 ^ 32)
    (hstore : e.store = g) (hfinished : Components.Finished e e') (hvalid : e'.store.Valid)
    (htopology : e'.store.topology = e.store.topology) : Uniform s.vertexCount e'.store where
  valid := hvalid
  nonempty := hsize
  bounded := hbounded
  ids := by rw [htopology, hstore, hg.ids]
  labels v hv := by
    subst hstore
    obtain ⟨x, hx, -, hleast⟩ := hfinished.labels v (hg.vertexCount_eq ▸ hv)
    have hzero : e.store.cells.vertices[0]? = some 0 := by
      rw [← Array.getElem?_toList, hg.vertices]
      simp [hsize]
    have hle := hleast 0 0 (hg.connected hv hsize) hzero
    rw [hx, Std.le_antisymm hle (UInt32.zero_le)]

/-! # Preparation -/

/-- The engine with a program pending on all vertices besides what is pending already. -/
def withTasks {P : Type} (p : P) (priority : Priority) (e : Engine V Unit Unit P) :
    Engine V Unit Unit P :=
  { e with
    phase := e.phase.configure
    scheduler := e.scheduler.pushAll ((List.range e.store.vertexCount).map fun vertex =>
      ⟨vertex, priority, p⟩) }

/-- To schedule all vertices gives each of them a task. -/
theorem scheduleAll_eq {P : Type} {e : Engine V Unit Unit P} (hidle : e.phase.isIdle = true)
    (hcount : 0 < e.store.vertexCount) (p : P) (priority : Priority) :
    Engine.scheduleAll p priority e = (.ok (), withTasks p priority e) := by
  rw [Engine.scheduleAll, Engine.Operation.during, if_pos hidle, Engine.Operation.setUp,
    Engine.Operation.change, if_neg hcount.ne']
  rfl

/-- The engine of an experiment before anything is scheduled. -/
def assembled (s : Setting) (config : Config) (processors : Nat)
    (program : Program V Unit Unit Unit) (key : String) (pass : Pass V Unit) (g : Store V Unit) :
    SoleEngine V :=
  { withStore (Engine.new config processors (fun _ => program) ()) g with
    registry := ⟨[{ key, interval := s.interval, pass }]⟩ }

/-- With one worker and a graph that fits, an engine is made ready, with the graph and the
aggregator in it and the program pending on all vertices. -/
theorem exists_prepare {config : Config} {processors : Nat}
    (hworkers : config.resolvedWorkers processors = 1) (hsize : 0 < s.vertexCount)
    (hbounded : s.vertexCount ≤ 2 ^ 32) (program : Program V Unit Unit Unit) (data : Nat → V)
    (key : String) (hkey : key.isEmpty = false) (pass : Pass V Unit) (priority : Priority) :
    ∃ g, s.Filled data g ∧ s.prepare config processors program data key pass priority =
      .ok (withTasks () priority (s.assembled config processors program key pass g)) := by
  obtain ⟨g, hbuild, -, hg⟩ := exists_build (s := s) hbounded data
    (e := Engine.new config processors (fun _ => program) ()) rfl rfl
  refine ⟨g, hg, ?_⟩
  have hroom : Agenda.hasRoom config.policy (config.resolvedWorkers processors) = true := by
    rw [hworkers]
    cases config.policy <;> rfl
  have hadd : perform (Engine.addAggregator key pass s.interval)
      (withStore (Engine.new config processors (fun _ => program) ()) g) =
        .ok (s.assembled config processors program key pass g) := by
    simp only [perform, Engine.addAggregator, Engine.Operation.during, Engine.Operation.setUp,
      Engine.Operation.change, Registry.register, hkey]
    rfl
  have hschedule :
      perform (Engine.scheduleAll () priority) (s.assembled config processors program key pass g) =
        .ok (withTasks () priority (s.assembled config processors program key pass g)) := by
    have hcount : 0 < (s.assembled config processors program key pass g).store.vertexCount :=
      hg.vertexCount_eq ▸ hsize
    rw [perform, scheduleAll_eq rfl hcount]
  simp only [prepare, hroom]
  rw [hbuild]
  change perform (Engine.addAggregator key pass s.interval) _ >>=
    perform (Engine.scheduleAll () priority) = _
  exact (congrArg (· >>= perform (Engine.scheduleAll () priority)) hadd).trans hschedule

/-! # The whole experiment -/

/-- The report of an experiment that has gone well. -/
theorem summarize_eq (algorithm : String) (finding : Finding) {e : SoleEngine V}
    (hlive : e.phase.isLive = true) : summarize algorithm finding e = .ok {
      algorithm, finding
      graph := e.store.stats
      updates := e.updateCount
      failures := e.failures.map Failure.describe
      metrics := e.metrics } := by
  simp only [summarize, ask, Engine.graph, Engine.lastFailures, Engine.lastUpdateCount,
    Engine.lastMetrics, Engine.Operation.during, Engine.Operation.ask, if_pos hlive]
  rfl

/-- With one worker, the experiment ends without failures, and finds one component, which has all
vertices. -/
theorem exists_findComponents {config : Config} {host : Host}
    (hworkers : config.resolvedWorkers host.processors = 1) (hsize : 0 < s.vertexCount)
    (hbounded : s.vertexCount ≤ 2 ^ 32) : ∃ bound, ∀ steps ≥ bound, ∃ summary first,
    s.findComponents config host steps = some (.ok summary) ∧
      summary.finding = .components 1 first ∧ first.toInt = s.vertexCount ∧ summary.failures = [] ∧
      summary.metrics.failures = 0 := by
  have hharmless :=
    harmless_vertexCount (E := Unit) "in_first_component" (by decide) "labelled_zero"
    (· == (0 : UInt32))
  let pass : Pass UInt32 Unit := (VertexPrograms.vertexCount "in_first_component" (· == 0)).pass
  obtain ⟨g, hg, hprepare⟩ := exists_prepare hworkers hsize hbounded Components.program UInt32.ofNat
    "labelled_zero" (by decide) pass .zero
  let e₀ := s.assembled config host.processors Components.program "labelled_zero" pass g
  have hcount : 0 < e₀.alone.store.vertexCount := hg.vertexCount_eq ▸ hsize
  have hscheduled : Components.Scheduled host () (withTasks () .zero e₀).alone :=
    Components.Scheduled.of_scheduleAll hg.built ⟨config.policy, _, [],
      rfl⟩ rfl rfl e₀.manual_alone hworkers (scheduleAll_eq rfl hcount () .zero)
  have hcountable : ({} : Globals).Countable "in_first_component" :=
    ⟨Std.ExtTreeMap.contains_empty, fun e he => by cases he⟩
  obtain ⟨bound, hbound⟩ := Components.exists_start_watched hscheduled hharmless rfl hcountable
  refine ⟨bound, fun steps hsteps => ?_⟩
  obtain ⟨e₁, hstart, hfinished, hwatched, hphase, hvalid, htopology⟩ := hbound steps hsteps
  have huniform := hg.uniform hsize hbounded rfl hfinished hvalid htopology
  have hlive : e₁.phase.isLive = true := hphase ▸ rfl
  obtain ⟨e₂, hnow, halone, hpass, hwatched₂⟩ := hwatched.aggregateNow hharmless hlive
  have hstore₂ : e₂.store = e₁.store := congrArg (·.store) halone
  have hphase₂ : e₂.phase = e₁.phase := congrArg (·.phase) halone
  have hfailures₂ : e₂.failures = e₁.failures := congrArg (·.failures) halone
  have hlive₂ : e₂.phase.isLive = true := hphase₂ ▸ hlive
  obtain ⟨m, hvalue, hm⟩ := huniform.exists_value hwatched.globals.named hpass
  have hfound := (hstore₂ ▸ huniform).componentsFound hlive₂ hvalue
  have hexecute : execute host steps "labelled_zero" (withTasks () .zero e₀) = some (.ok e₂) := by
    rw [execute, hstart, Option.map_some]
    simp only [perform, hnow]
  have hfind : s.findComponents config host steps =
      some (summarize "components" (.components 1 m) e₂) := by
    rw [findComponents, componentsEngine, hprepare]
    change (execute host steps "labelled_zero" (withTasks () .zero e₀)).map _ = _
    rw [hexecute, Option.map_some]
    change some (componentsFound e₂ >>= fun finding => summarize "components" finding e₂) = _
    rw [hfound]
    rfl
  rw [hfind, summarize_eq _ _ hlive₂]
  refine ⟨_, m, rfl, rfl, hm, ?_, hwatched₂.failures⟩
  rw [hfailures₂, hfinished.failures, List.map_nil]

/-- A synthetic graph of positive size, with no more vertices than there are identifiers, is well
formed: its edges are within bounds, none is a loop or there twice, they are as many as there should
be, and paths lead from every vertex to every other. No operation that builds it in a new engine is
refused, and with one worker the search for its components ends without failures and finds one,
which has all vertices, whatever the policy, the interval, and the rest of the configuration are. -/
theorem components_of_synthetic (hsize : 1 ≤ s.size) (hfits : s.vertexCount ≤ 2 ^ 32) :
    (s.vertexCount = match s.shape with
      | .ring => s.size
      | .grid => s.size * s.size) ∧
    ((s.shape.edges s.size).length = match s.shape with
      | .ring => if 1 < s.size then s.size else 0
      | .grid => 2 * s.size * (s.size - 1)) ∧
    (∀ u v, (u, v) ∈ s.shape.edges s.size → u < s.vertexCount ∧ v < s.vertexCount ∧ u ≠ v) ∧
    (s.shape.edges s.size).Nodup ∧
    (∀ u v, u < s.vertexCount → v < s.vertexCount → s.shape.Linked s.size u v) ∧
    (∀ (V : Type) (config : Config) (processors : Nat) (program : Program V Unit Unit Unit)
      (data : Nat → V),
      let e := Engine.new config processors (fun _ => program) ()
      ∃ g, s.build data e = .ok (withStore e g) ∧
        (s.operations data).foldlM (fun e op => perform op e) e = .ok (withStore e g) ∧
        s.Filled data g) ∧
    ∀ (config : Config) (host : Host), config.resolvedWorkers host.processors = 1 →
      ∃ bound, ∀ steps ≥ bound, ∃ summary first, s.findComponents config host steps =
        some (.ok summary) ∧ summary.finding = .components 1 first ∧ first.toInt = s.vertexCount ∧
        summary.failures = [] ∧ summary.metrics.failures = 0 := by
  have hpositive : 0 < s.vertexCount := by
    rw [vertexCount]
    cases s.shape with
    | ring => exact hsize
    | grid => exact Nat.mul_pos hsize hsize
  refine ⟨?_, ?_, fun _ _ => s.shape.bounds_of_mem, s.shape.nodup_edges s.size, fun _ _ =>
    s.shape.linked,
    fun _ _ _ _ data => exists_build hfits data rfl rfl,
    fun _ _ hworkers => exists_findComponents hworkers hpositive hfits⟩
  · rw [vertexCount]
    cases s.shape <;> rfl
  · cases s.shape with
    | ring => exact Shape.length_edges_ring s.size
    | grid => exact Shape.length_edges_grid s.size

/-- A square of nine vertices with a count after every second update. -/
theorem components_of_synthetic_square :
    let s : Setting := { shape := .grid, size := 3, interval := 2 }
    let config : Config := { workerThreads := 1, policy := .priority, abortOnError := true }
    1 ≤ s.size ∧ s.vertexCount ≤ 2 ^ 32 ∧ config.resolvedWorkers 8 = 1 ∧
      ∃ bound, ∀ steps ≥ bound, ∃ summary first,
        s.findComponents config { processors := 8 } steps = some (.ok summary) ∧
        summary.finding = .components 1 first ∧ first.toInt = 9 ∧ summary.failures = [] ∧
        summary.metrics.failures = 0 := by
  intro s config
  have hsize : 1 ≤ s.size := by decide
  have hfits : s.vertexCount ≤ 2 ^ 32 := by decide
  obtain ⟨-, -, -, -, -, -, hfind⟩ := s.components_of_synthetic hsize hfits
  exact ⟨hsize, hfits, rfl, hfind config { processors := 8 } rfl⟩

end Setting

end VertexPrograms
