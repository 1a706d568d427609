import VertexPrograms.Proofs.Engine.Components
import VertexPrograms.Proofs.Engine.Rounds

/-!
# Passes that only watch

A pass reads the graph and may only change the globals. If it does not fail, a run of a program that
does not use the globals goes on as if there were no aggregator. So the components program finds the
components whatever the intervals of such aggregators are.
-/

namespace VertexPrograms

namespace Registry

variable {V E : Type} {I : Globals → Prop} {passes : List (String × Pass V E)}
  {entries : List (Registration V E)}

/-- Keys and passes, in the order in which they run. -/
def passesOf (entries : List (Registration V E)) : List (String × Pass V E) :=
  entries.map fun r => (r.key, r.pass)

/-- The passes succeed on globals of which `I` holds, and keep it. -/
def Harmless (I : Globals → Prop) (passes : List (String × Pass V E)) : Prop :=
  ∀ x ∈ passes, ∀ t c g, I g → ∃ g', x.2 t c g = (.ok (), g') ∧ I g'

/-- What is chosen among harmless passes runs without a fault. -/
theorem Harmless.runWhere (h : Harmless I (passesOf entries)) (chosen : Registration V E → Bool)
    (t : Topology) (c : Cells V E) {g : Globals} (hg : I g) :
    (∀ o ∈ (Registry.runWhere chosen t c entries g).outcomes, o.fault = none) ∧
      I (Registry.runWhere chosen t c entries g).globals ∧
      passesOf (Registry.runWhere chosen t c entries g).entries = passesOf entries := by
  induction entries generalizing g with
  | nil => exact ⟨fun _ ho => absurd ho List.not_mem_nil, hg, rfl⟩
  | cons r rest ih =>
    obtain ⟨hr, hrest⟩ := List.forall_mem_cons.mp h
    cases hchosen : chosen r with
    | true =>
      obtain ⟨g', hpass, hg'⟩ := hr t c g hg
      obtain ⟨hfaults, hI, hentries⟩ := ih hrest hg'
      have hpass : r.pass t c g = (.ok (), g') := hpass
      simp only [Registry.runWhere, hchosen, if_true, hpass]
      exact ⟨List.forall_mem_cons.mpr ⟨rfl, hfaults⟩, hI, congrArg (_ :: ·) hentries⟩
    | false =>
      obtain ⟨hfaults, hI, hentries⟩ := ih hrest hg
      simp only [Registry.runWhere, hchosen, Bool.false_eq_true, if_false]
      exact ⟨hfaults, hI, congrArg (_ :: ·) hentries⟩

end Registry

namespace Engine

variable {V E M P : Type} {host : Host} {I : Globals → Prop} {passes : List (String × Pass V E)}
  {e : Engine V E M P}

/-- The engine without aggregators, globals and metrics. -/
def alone (e : Engine V E M P) : Engine V E M P :=
  { e with registry := {}, globals := {}, metrics := {} }

theorem manual_alone (e : Engine V E M P) : e.alone.Manual := fun _ hr => absurd hr List.not_mem_nil

/-- The aggregators are these, the globals are as these need them, and nothing has failed. -/
structure Watched (I : Globals → Prop) (passes : List (String × Pass V E))
    (e : Engine V E M P) : Prop where
  registered : Registry.passesOf e.registry.entries = passes
  globals : I e.globals
  failures : e.metrics.failures = 0

/-- Harmless passes change nothing that matters. -/
theorem Watched.runDue (h : e.Watched I passes) (hpasses : Registry.Harmless I passes) :
    e.runDue.alone = e.alone ∧ e.runDue.Watched I passes := by
  obtain ⟨hregistered, hglobals, hfailures⟩ := h
  obtain ⟨hfaults, hI, hentries⟩ :=
    Registry.Harmless.runWhere (hregistered ▸ hpasses) (·.isDue e.updateCount)
    e.store.topology e.store.cells hglobals
  have hnone : Registry.failuresOf e.updateCount
      (e.registry.onUpdate e.updateCount e.store.topology e.store.cells e.globals).outcomes = [] :=
    List.filterMap_eq_nil_iff.mpr fun o ho => by rw [hfaults o ho, Option.map_none]
  have hkept :=
    Registry.entries_onUpdate e.registry e.updateCount e.store.topology e.store.cells e.globals
  rw [runDue_eq]
  simp only [hnone, ← hkept]
  refine ⟨?_, hentries.trans hregistered, hI, hfailures⟩
  simp [alone]

variable {t : Task P} {cells : Cells V E} {memory : M} {requests : Array (Task P)}

/-- Nor does a program that does not use the globals notice them. -/
theorem Watched.execute (h : e.Watched I passes) (hpasses : Registry.Harmless I passes)
    (host : Host)
    (hrun : ∀ globals, ((e.programs t.program).update (e.scopeOf t)).run (e.scopeOf t) t.program
      ⟨e.store.cells, globals, e.memory, #[]⟩ = (none, ⟨cells, globals, memory, requests⟩)) :
    (e.execute host t).alone = (e.alone.execute host t).alone ∧
      (e.execute host t).Watched I passes ∧ (e.execute host t).store.cells = cells := by
  have hupdate := hrun e.globals
  let u : Engine V E M P := { e with
    store := { e.store with cells }
    memory
    scheduler := (e.scheduler.pushAll requests.toList).complete
    updateCount := e.updateCount + 1
    metrics := e.metrics.recordUpdate (e.programs t.program).name
      (host.duration (e.updateCount + 1)) }
  have hexecute : e.execute host t = u.runDue := by
    simp only [Engine.execute, runUpdate, hupdate]
    rfl
  have hwatched : u.Watched I passes := ⟨h.registered, h.globals, h.failures⟩
  obtain ⟨halone, hwatched'⟩ := hwatched.runDue hpasses
  refine ⟨?_, hexecute ▸ hwatched', ?_⟩
  · rw [hexecute, halone, e.manual_alone.execute host (hrun {})]
    rfl
  · rw [hexecute, runDue_eq]

end Engine

namespace Components

variable {E M P : Type} {host : Host} {e e' : Engine UInt32 E M P} {p : P} {t : Topology}
  {start : Cells UInt32 E} {I : Globals → Prop} {passes : List (String × Pass UInt32 E)}

/-- A run that is undisturbed stays so without its passes. -/
theorem Undisturbed.alone (h : Undisturbed p t e) : Undisturbed p t e.alone :=
  ⟨h.program, e.manual_alone, h.topology, h.size, h.pending, h.active, h.running, h.failures⟩

/-- An update does not depend on the globals, and leaves the data of the edges alone. -/
theorem exists_run_alike {s : Scope} (ht : s.topology.Valid) {c : Cells UInt32 E}
    (hc : c.vertices.size = s.topology.vertexCount) (hv : s.centre < s.topology.vertexCount)
    (self : P) (memory : M) : ∃ (cells : Cells UInt32 E) (requests : Array (Task P)),
    cells.edges = c.edges ∧ ∀ globals,
      ((program : Program UInt32 E M P).update s).run s self ⟨c, globals, memory, #[]⟩ =
        (none, ⟨cells, globals, memory, requests⟩) := by
  by_cases hlt : smallest s.topology c s.centre < label c s.centre
  · let x := smallest s.topology c s.centre
    exact ⟨c.modifyVertex s.centre fun _ => x, _, rfl,
      fun globals => (run_update ht hc hv self globals memory).trans (if_pos hlt)⟩
  · exact ⟨c, _, rfl, fun globals => (run_update ht hc hv self globals memory).trans (if_neg hlt)⟩

/-- A turn goes as it would alone. -/
theorem alone_turn (ht : t.Valid) (h : Undisturbed p t e.alone) (hw : e.Watched I passes)
    (hpasses : Registry.Harmless I passes) (host : Host) {task : Task P} {agenda : Agenda}
    (hmem : task ∈ e.scheduler.tasks) :
    let e' := (e.handOut task agenda).execute host task
    e'.alone = ((e.alone.handOut task agenda).execute host task).alone ∧ e'.Watched I passes ∧
      e'.store.cells.edges = e.store.cells.edges := by
  obtain ⟨v, priority, q⟩ := task
  obtain ⟨hv, rfl⟩ := h.pending v q (Scheduler.programOf?_of_mem hmem)
  obtain rfl := h.topology
  obtain ⟨cells, requests, hedges, hrun⟩ :=
    exists_run_alike (s := (e.handOut ⟨v, priority, q⟩ agenda).scopeOf ⟨v, priority, q⟩) ht h.size
      hv q e.memory
  have hprogram : e.programs q = program := h.program
  rw [← hprogram] at hrun
  have hwatched : (e.handOut ⟨v, priority, q⟩ agenda).Watched I passes :=
    ⟨hw.registered, hw.globals, hw.failures⟩
  obtain ⟨halone, hwatched', hcells⟩ := hwatched.execute hpasses host hrun
  exact ⟨halone, hwatched', (congrArg (·.edges) hcells).trans hedges⟩

/-- A run with harmless passes ends as it would alone. -/
theorem exists_iterate_watched (host : Host) (ht : t.Valid) (hpasses : Registry.Harmless I passes)
    {n steps : Nat} (h : Undisturbed p t e.alone) (hw : e.Watched I passes)
    (hs : Spreading t start e.alone) (hvalid : e.scheduler.Valid n)
    (hsteps : weight t e.alone < steps) : ∃ e', Engine.iterate host steps e = some e' ∧
    Undisturbed p t e'.alone ∧ e'.Watched I passes ∧
      Spreading t start e'.alone ∧ e'.scheduler.tasks = [] ∧
      e'.store.cells.edges = e.store.cells.edges := by
  induction steps generalizing e with
  | zero => omega
  | succ steps ih =>
    rcases Engine.step_cases hvalid h.running host with
      ⟨hnil, agenda, hstep⟩ | ⟨task, agenda, hmem, hvalid', hstep⟩
    · refine ⟨{ e with scheduler := { e.scheduler with agenda } }, by rw [Engine.iterate, hstep],
        ?_, ?_, ?_, hnil, rfl⟩
      · exact ⟨h.program, h.manual, h.topology, h.size, h.pending, h.active, h.running, h.failures⟩
      · exact ⟨hw.registered, hw.globals, hw.failures⟩
      · exact ⟨hs.below, hs.inside, hs.settled⟩
    · have hturn : e.alone.Turn host ((e.alone.handOut task agenda).execute host task) :=
        .run task agenda hmem
      obtain ⟨v, hv, hpending, hu', hrelaxed⟩ := relaxed_of_turn ht h hturn
      obtain ⟨halone, hw', hedges⟩ := alone_turn ht h hw hpasses host hmem
      have hu : Undisturbed p t ((e.handOut task agenda).execute host task).alone := by
        rw [halone]
        exact hu'.alone
      have hs' : Spreading t start ((e.handOut task agenda).execute host task).alone := by
        obtain ⟨hbelow, hinside, hsettled⟩ := hrelaxed.spreading ht hv hs
        rw [halone]
        exact ⟨hbelow, hinside, hsettled⟩
      have hweight : weight t ((e.handOut task agenda).execute host task).alone < steps := by
        rw [halone]
        exact lt_of_lt_of_le (hrelaxed.weight_lt hv hpending) (Nat.lt_succ_iff.mp hsteps)
      obtain ⟨e', hiterate, hends⟩ := ih hu hw' hs' (Engine.valid_execute hvalid' host task) hweight
      refine ⟨e', ?_, ?_⟩
      · rw [Engine.iterate, hstep]
        exact hiterate
      · exact hedges ▸ hends

/-- If the program is scheduled on every vertex and the passes of all aggregators are harmless, a
run with one worker ends well, and finds the components, under every policy and whatever the
intervals are. -/
theorem exists_start_watched (h : Scheduled host p e.alone) (hpasses : Registry.Harmless I passes)
    (hregistered : Registry.passesOf e.registry.entries = passes) (hglobals : I e.globals) :
    ∃ bound, ∀ steps ≥ bound, ∃ e', e.start host steps = some (.ok (), e') ∧ Finished e.alone e' ∧
      e'.Watched I passes ∧ e'.phase = .completed ∧ e'.store.Valid ∧
      e'.store.topology = e.store.topology := by
  have hstore : e.store.Valid := h.store.valid
  obtain ⟨n, hvalid⟩ := h.scheduler.valid
  refine ⟨weight e.store.topology (e.alone.launch host) + 1, fun steps hsteps => ?_⟩
  have hlaunch :
      (e.launch host).scheduler.Valid (max (e.config.resolvedWorkers host.processors) 1) :=
    hvalid.prepare _ _
  have hwatched : (e.launch host).Watched I passes := ⟨hregistered, hglobals, rfl⟩
  obtain ⟨e', hiterate, hu, hw, hs, hdone, hedges⟩ :=
    exists_iterate_watched host hstore.topology hpasses
    h.undisturbed hwatched h.spreading hlaunch hsteps
  have hfailures : e'.failures = [] := hu.failures
  have hclose := Engine.close_of_failures hfailures host
  have hfinished := h.finished hu hs hdone
  have htopology : e'.store.topology = e.store.topology := hu.topology
  refine ⟨(e'.close host).2, ?_, ?_⟩
  · have hn : ¬e.store.vertexCount = 0 := Nat.ne_of_gt h.nonempty
    have hready : e.phase.isReady = true := h.ready
    have hroom : e.hasRoom host = true := Engine.hasRoom_of_one h.workers
    simp only [Engine.start, hready, hroom, Bool.not_true, Bool.false_eq_true, if_false, if_neg hn,
      hiterate, Option.map_some, hclose]
  · rw [hclose]
    refine ⟨?_, ⟨hw.registered, hw.globals, hw.failures⟩, rfl, ⟨?_, ?_, ?_⟩, htopology⟩
    · exact ⟨rfl, hfinished.pending, hfinished.active, hfinished.labels, hfinished.identifiers⟩
    · exact htopology ▸ hstore.topology
    · exact hu.size.trans (congrArg Topology.vertexCount htopology.symm)
    · change e'.store.cells.edges.size = e'.store.topology.edgeCount
      rw [hedges, htopology]
      exact hstore.edges_size

end Components

end VertexPrograms
