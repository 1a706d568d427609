import Mathlib.Algebra.BigOperators.Group.Finset.Basic
import Mathlib.Algebra.Order.BigOperators.Group.Finset
import Mathlib.Logic.Relation
import VertexPrograms.Proofs.Engine.Turns
import VertexPrograms.Proofs.Program.Components

/-!
# The components program finds the components

While it runs, every label comes from the component of its vertex, and a vertex that is not pending
has no larger label than its neighbours. Each turn lowers a label or takes a task away without
asking for another, so a run ends; and when nothing is pending any more, each label is the smallest
of its component. None of this depends on the order in which tasks are handed out.
-/

namespace VertexPrograms

/-- A path of edges, whatever their directions, leads from one vertex to the other. -/
def Topology.Connected (t : Topology) : VertexIndex → VertexIndex → Prop :=
  Relation.ReflTransGen t.Joins

namespace Components

variable {E M P : Type} {host : Host} {e e' : Engine UInt32 E M P} {p : P} {t : Topology}
  {start : Cells UInt32 E}

/-- The label is the smallest that the vertices of the component have. -/
def SmallestIn (t : Topology) (labels : Array UInt32) (v : VertexIndex) (x : UInt32) : Prop :=
  (∃ u, t.Connected v u ∧ labels[u]? = some x) ∧
    ∀ (u : VertexIndex) (y : UInt32), t.Connected v u → labels[u]? = some y → x ≤ y

/-- Nothing that is not part of the computation interferes, and nothing has failed. -/
structure Undisturbed (p : P) (t : Topology) (e : Engine UInt32 E M P) : Prop where
  program : e.programs p = Components.program
  manual : e.Manual
  topology : e.store.topology = t
  size : e.store.cells.vertices.size = t.vertexCount
  pending : ∀ v q, e.scheduler.programOf? v = some q → v < t.vertexCount ∧ q = p
  active : e.scheduler.active = 0
  running : e.scheduler.aborted = false
  failures : e.failures = []

/-- The labels on the way from those in `start` to the smallest. -/
structure Spreading (t : Topology) (start : Cells UInt32 E) (e : Engine UInt32 E M P) : Prop where
  below : ∀ v < t.vertexCount, label e.store.cells v ≤ label start v
  inside : ∀ v < t.vertexCount, ∃ u, t.Connected v u ∧ label e.store.cells v = label start u
  settled : ∀ v < t.vertexCount, e.scheduler.programOf? v = none →
    ∀ u ∈ t.adjacentOf v, label e.store.cells v ≤ label e.store.cells u

/-- What one turn does: the vertex takes the smallest label around it, and if that is a smaller one
than it had, its neighbours become pending. -/
structure Relaxed (t : Topology) (v : VertexIndex) (e e' : Engine UInt32 E M P) : Prop where
  label : ∀ u < t.vertexCount, label e'.store.cells u =
    if u = v then smallest t e.store.cells v else label e.store.cells u
  pending : ∀ u, (e'.scheduler.programOf? u).isSome = true ↔
    smallest t e.store.cells v < Components.label e.store.cells v ∧ u ∈ t.adjacentOf v ∨
      u ≠ v ∧ (e.scheduler.programOf? u).isSome = true

/-- Every turn relaxes a vertex that was pending, and disturbs nothing. -/
theorem relaxed_of_turn (ht : t.Valid) (h : Undisturbed p t e) (hturn : e.Turn host e') :
    ∃ v < t.vertexCount, (e.scheduler.programOf? v).isSome = true ∧ Undisturbed p t e' ∧
      Relaxed t v e e' := by
  obtain ⟨⟨v, priority, q⟩, agenda, hmem⟩ := hturn
  have hprogram : e.scheduler.programOf? v = some q := Scheduler.programOf?_of_mem hmem
  obtain ⟨hv, rfl⟩ := h.pending v q hprogram
  obtain rfl := h.topology
  let e₁ := e.handOut ⟨v, priority, q⟩ agenda
  obtain ⟨cells, requests, hrun, hsize, hlabel, hself, hrequests⟩ :=
    exists_run_update (s := e₁.scopeOf ⟨v, priority, q⟩) ht h.size hv q e.globals e.memory
  rw [← h.program] at hrun
  have hmanual : e₁.Manual := h.manual
  have hexecute := hmanual.execute host hrun
  have htable (u : VertexIndex) : (e₁.execute host ⟨v, priority, q⟩).scheduler.programOf? u =
      if smallest e.store.topology e.store.cells v < Components.label e.store.cells v ∧
          u ∈ e.store.topology.adjacentOf v then
        some ((if v = u then none else e.scheduler.programOf? u).getD q)
      else if v = u then none else e.scheduler.programOf? u := by
    rw [h.manual.programOf?_execute host hrun hself]
    simp only [hrequests]
    rfl
  refine ⟨v, hv, by rw [hprogram]; rfl, ?_, ?_⟩
  · have hpending : ∀ u r, (e₁.scheduler.pushAll requests.toList).programOf? u = some r →
        u < e.store.topology.vertexCount ∧ r = q :=
      Scheduler.forall_programOf?_pushAll
        (fun u r hr => h.pending u r (Scheduler.programOf?_of_erase rfl hr)) fun w hw =>
        ⟨(ht.adjacent_lt ((hrequests _).mp (List.mem_map_of_mem hw)).2).2, hself w hw⟩
    rw [hexecute]
    refine ⟨h.program, h.manual, rfl, hsize.trans h.size, hpending, ?_, ?_, h.failures⟩
    · change (e₁.scheduler.pushAll requests.toList).active - 1 = 0
      rw [Scheduler.active_pushAll]
      exact congrArg (· + 1 - 1) h.active
    · exact (Scheduler.aborted_pushAll _ _).trans h.running
  · refine ⟨by rw [hexecute]; exact hlabel, fun u => ?_⟩
    rw [htable]
    by_cases hnew : smallest e.store.topology e.store.cells v < Components.label e.store.cells v ∧
        u ∈ e.store.topology.adjacentOf v
    · rw [if_pos hnew]
      exact ⟨fun _ => .inl hnew, fun _ => rfl⟩
    · rw [if_neg hnew, or_iff_right hnew]
      by_cases huv : v = u
      · simp [huv]
      · simp [huv, Ne.symm huv]

namespace Relaxed

variable {v : VertexIndex}

/-- Labels do not grow. -/
theorem label_le (h : Relaxed t v e e') {u : VertexIndex} (hu : u < t.vertexCount) :
    Components.label e'.store.cells u ≤ Components.label e.store.cells u := by
  rw [h.label u hu]
  split
  · rename_i huv
    exact huv ▸ smallestOf_le _ _
  · exact Std.le_refl _

/-- A turn keeps labels on their way. -/
theorem spreading (ht : t.Valid) (h : Relaxed t v e e') (hv : v < t.vertexCount)
    (hs : Spreading t start e) : Spreading t start e' := by
  refine ⟨fun u hu => ?_, fun u hu => ?_, fun u hu hnone w hw => ?_⟩
  · exact Std.le_trans (h.label_le hu) (hs.below u hu)
  · rw [h.label u hu]
    split
    · rename_i huv
      subst huv
      rcases smallestOf_eq (c := e.store.cells) (Components.label e.store.cells u)
        (t.adjacentOf u) with
        heq | ⟨w, hw, heq⟩
      · obtain ⟨x, hx, hlabel⟩ := hs.inside u hu
        exact ⟨x, hx, heq.trans hlabel⟩
      · obtain ⟨x, hx, hlabel⟩ := hs.inside w (ht.adjacent_lt hw).2
        have hjoins : t.Joins u w := ((ht.mem_adjacent u w).mp hw).2
        exact ⟨x, .head hjoins hx, heq.trans hlabel⟩
    · exact hs.inside u hu
  · -- a vertex that is not pending has been looked at last, or its neighbourhood is as it was
    have hnone : ¬(e'.scheduler.programOf? u).isSome = true := by simp [hnone]
    rw [h.pending] at hnone
    obtain ⟨hquiet, hold⟩ := not_or.mp hnone
    have hw' := (ht.adjacent_lt hw)
    rw [h.label u hu, h.label w hw'.2]
    by_cases huv : u = v
    · subst huv
      rw [if_pos rfl, if_neg hw'.1]
      exact smallestOf_le_label _ hw
    · have hsettled := hs.settled u hu (by simpa [huv] using hold)
      rw [if_neg huv]
      split
      · rename_i hwv
        subst hwv
        have hsame : ¬smallest t e.store.cells w < Components.label e.store.cells w := fun hlt =>
          hquiet ⟨hlt, ht.adjacent_symm hw⟩
        exact Std.le_trans (hsettled w hw) (Std.not_lt.mp hsame)
      · exact hsettled w hw

end Relaxed

/-- The sum of the labels. -/
def total (t : Topology) (e : Engine UInt32 E M P) : Nat :=
  ∑ v ∈ Finset.range t.vertexCount, (label e.store.cells v).toNat

/-- The vertices that are pending. -/
def pendingVertices (t : Topology) (e : Engine UInt32 E M P) : Finset VertexIndex :=
  (Finset.range t.vertexCount).filter fun v => (e.scheduler.programOf? v).isSome = true

/-- A bound on the number of turns to come: to lower a label counts for more than all vertices can
be pending. -/
def weight (t : Topology) (e : Engine UInt32 E M P) : Nat :=
  total t e * (t.vertexCount + 1) + (pendingVertices t e).card

/-- There are at most as many pending vertices as vertices. -/
theorem card_pendingVertices_le (t : Topology) (e : Engine UInt32 E M P) :
    (pendingVertices t e).card ≤ t.vertexCount :=
  (Finset.card_filter_le ..).trans_eq (Finset.card_range _)

namespace Relaxed

variable {v : VertexIndex}

private theorem toNat_label_le (h : Relaxed t v e e') {u : VertexIndex}
    (hu : u ∈ Finset.range t.vertexCount) :
    (Components.label e'.store.cells u).toNat ≤ (Components.label e.store.cells u).toNat :=
  UInt32.le_iff_toNat_le.mp (h.label_le (Finset.mem_range.mp hu))

theorem total_le (h : Relaxed t v e e') : total t e' ≤ total t e :=
  Finset.sum_le_sum fun _ hu => h.toNat_label_le hu

/-- The sum gets smaller if the label of the vertex does. -/
theorem total_lt (h : Relaxed t v e e') (hv : v < t.vertexCount)
    (hlt : smallest t e.store.cells v < Components.label e.store.cells v) :
    total t e' < total t e := by
  refine Finset.sum_lt_sum (fun _ hu => h.toNat_label_le hu) ⟨v, Finset.mem_range.mpr hv, ?_⟩
  rw [h.label v hv, if_pos rfl]
  exact UInt32.lt_iff_toNat_lt.mp hlt

/-- Otherwise there are fewer pending vertices. -/
theorem pendingVertices_ssubset (h : Relaxed t v e e') (hv : v < t.vertexCount)
    (hpending : (e.scheduler.programOf? v).isSome = true)
    (hlt : ¬smallest t e.store.cells v < Components.label e.store.cells v) :
    pendingVertices t e' ⊂ pendingVertices t e := by
  have hold (u : VertexIndex) (hu : u ∈ pendingVertices t e') :
      u ≠ v ∧ u ∈ pendingVertices t e := by
    obtain ⟨hu, hsome⟩ := Finset.mem_filter.mp hu
    rcases (h.pending u).mp hsome with ⟨hlt', -⟩ | ⟨hne, hsome⟩
    · exact absurd hlt' hlt
    · exact ⟨hne, Finset.mem_filter.mpr ⟨hu, hsome⟩⟩
  refine (Finset.ssubset_iff_of_subset fun u hu => (hold u hu).2).mpr ⟨v, ?_, fun hu =>
    (hold v hu).1 rfl⟩
  exact Finset.mem_filter.mpr ⟨Finset.mem_range.mpr hv, hpending⟩

/-- Every turn lowers the bound. -/
theorem weight_lt (h : Relaxed t v e e') (hv : v < t.vertexCount)
    (hpending : (e.scheduler.programOf? v).isSome = true) : weight t e' < weight t e := by
  rw [weight, weight]
  by_cases hlt : smallest t e.store.cells v < Components.label e.store.cells v
  · have hmul := Nat.mul_le_mul_right (t.vertexCount + 1) (Nat.succ_le_of_lt (h.total_lt hv hlt))
    have hcard := card_pendingVertices_le t e'
    rw [Nat.succ_mul] at hmul
    omega
  · have hmul := Nat.mul_le_mul_right (t.vertexCount + 1) h.total_le
    have hcard := Finset.card_lt_card (h.pendingVertices_ssubset hv hpending hlt)
    omega

end Relaxed

/-- What all turns keep, and how many there can be. -/
theorem of_turns (ht : t.Valid) {k : Nat} (h : Undisturbed p t e) (hs : Spreading t start e)
    (hturns : e.Turns host k e') :
    Undisturbed p t e' ∧ Spreading t start e' ∧ weight t e' + k ≤ weight t e := by
  induction hturns with
  | none => exact ⟨h, hs, Nat.le_refl _⟩
  | more _ hturn ih =>
    obtain ⟨hu, hs, hweight⟩ := ih
    obtain ⟨v, hv, hpending, hu', hrelaxed⟩ := relaxed_of_turn ht hu hturn
    have hlt := hrelaxed.weight_lt hv hpending
    exact ⟨hu', hrelaxed.spreading ht hv hs, by omega⟩

/-- When nothing is pending, the labels are the smallest of their components. -/
theorem Spreading.smallestIn (ht : t.Valid) (hs : Spreading t start e) (h : Undisturbed p t e)
    (hstart : start.vertices.size = t.vertexCount) (hdone : e.scheduler.tasks = [])
    {v : VertexIndex} (hv : v < t.vertexCount) :
    ∃ x, e.store.cells.vertices[v]? = some x ∧ SmallestIn t start.vertices v x := by
  have hbound {u : VertexIndex} (hu : t.Connected v u) : u < t.vertexCount := by
    rcases Relation.ReflTransGen.cases_tail hu with rfl | ⟨w, -, hw⟩
    · exact hv
    · exact (ht.joins_lt hw).2
  have hpath {u : VertexIndex} (hu : t.Connected v u) :
      label e.store.cells v ≤ label e.store.cells u := by
    induction hu with
    | refl => exact Std.le_refl _
    | @tail w u _ hjoins ih =>
      by_cases huw : u = w
      · exact huw ▸ ih
      · refine Std.le_trans ih (hs.settled w (ht.joins_lt hjoins).1
          (Scheduler.programOf?_eq_none hdone w) u ?_)
        exact (ht.mem_adjacent w u).mpr ⟨huw, hjoins⟩
  refine ⟨label e.store.cells v, getElem?_eq_label h.size hv, ?_, fun u y hu hy => ?_⟩
  · obtain ⟨u, hu, hlabel⟩ := hs.inside v hv
    exact ⟨u, hu, hlabel ▸ getElem?_eq_label hstart (hbound hu)⟩
  · have hy : label start u = y := by rw [label, hy]; rfl
    exact hy ▸ Std.le_trans (hpath hu) (hs.below u (hbound hu))

/-- A run that may take as many steps as the bound says ends, with nothing pending. -/
theorem exists_iterate (host : Host) (ht : t.Valid) {n steps : Nat} (h : Undisturbed p t e)
    (hs : Spreading t start e) (hvalid : e.scheduler.Valid n) (hsteps : weight t e < steps) :
    ∃ e', Engine.iterate host steps e = some e' ∧ Undisturbed p t e' ∧ Spreading t start e' ∧
      e'.scheduler.tasks = [] := by
  induction steps generalizing e with
  | zero => omega
  | succ steps ih =>
    rcases Engine.step_cases hvalid h.running host with
      ⟨hnil, agenda, hstep⟩ | ⟨task, agenda, hmem, hvalid', hstep⟩
    · refine ⟨{ e with scheduler := { e.scheduler with agenda } }, by rw [Engine.iterate, hstep],
        ?_, ?_, hnil⟩
      · exact ⟨h.program, h.manual, h.topology, h.size, h.pending, h.active, h.running, h.failures⟩
      · exact ⟨hs.below, hs.inside, hs.settled⟩
    · have hturn : e.Turn host ((e.handOut task agenda).execute host task) := .run task agenda hmem
      obtain ⟨v, hv, hpending, hu', hrelaxed⟩ := relaxed_of_turn ht h hturn
      have hlt := hrelaxed.weight_lt hv hpending
      rw [Engine.iterate, hstep]
      exact ih hu' (hrelaxed.spreading ht hv hs) (Engine.valid_execute hvalid' host task) (by omega)

/-- The engine is about to run the program once on every vertex, with one worker. -/
structure Scheduled (host : Host) (p : P) (e : Engine UInt32 E M P) : Prop where
  store : e.store.Built
  scheduler : e.scheduler.Reachable
  program : e.programs p = Components.program
  tasks : ∀ v, e.scheduler.programOf? v = if v < e.store.vertexCount then some p else none
  manual : e.Manual
  nonempty : 0 < e.store.vertexCount
  ready : e.phase.isReady = true
  workers : e.config.resolvedWorkers host.processors = 1

/-- The engine has done so from the state `e`: nothing has failed, nothing is left to do, and each
vertex has the smallest label of its component, which is the smallest identifier if the identifiers
were the labels. -/
structure Finished (e e' : Engine UInt32 E M P) : Prop where
  failures : e'.failures = []
  pending : e'.scheduler.size = 0
  active : e'.scheduler.active = 0
  labels : ∀ v < e.store.vertexCount, ∃ x, e'.store.cells.vertices[v]? = some x ∧
    SmallestIn e.store.topology e.store.cells.vertices v x
  identifiers : e.store.cells.vertices = e.store.topology.ids → ∀ v < e.store.vertexCount,
    ∃ x, e'.store.cells.vertices[v]? = some x ∧ SmallestIn e.store.topology e.store.topology.ids v x

namespace Scheduled

/-- So is an engine without pending tasks once the program has been scheduled on all vertices. -/
theorem of_scheduleAll {priority : Priority} (hstore : e.store.Built)
    (hscheduler : e.scheduler.Reachable) (hempty : e.scheduler.size = 0)
    (hprogram : e.programs p = Components.program) (hmanual : e.Manual)
    (hworkers : e.config.resolvedWorkers host.processors = 1)
    (h : Engine.scheduleAll p priority e = (.ok (), e')) : Scheduled host p e' := by
  obtain ⟨ts, rfl, hnonempty, hready, htasks⟩ := Engine.of_scheduleAll hempty h
  exact ⟨hstore, hscheduler.pushAll ts, hprogram, htasks, hmanual, hnonempty, hready, hworkers⟩

/-- A run that has been prepared is undisturbed at first. -/
theorem undisturbed (h : Scheduled host p e) : Undisturbed p e.store.topology (e.launch host) where
  program := h.program
  manual := h.manual
  topology := rfl
  size := h.store.valid.vertices_size
  pending v q hq := by
    have htasks : e.scheduler.programOf? v = some q := hq
    rw [h.tasks] at htasks
    split at htasks
    · exact ⟨‹_›, (Option.some.inj htasks).symm⟩
    · cases htasks
  active := rfl
  running := rfl
  failures := rfl

/-- At first all labels are those of the store. -/
theorem spreading (h : Scheduled host p e) :
    Spreading e.store.topology e.store.cells (e.launch host) where
  below _ _ := Std.le_refl _
  inside v _ := ⟨v, .refl, rfl⟩
  settled v hv hnone := by
    have htasks : e.scheduler.programOf? v = none := hnone
    rw [h.tasks, if_pos (show v < e.store.vertexCount from hv)] at htasks
    cases htasks

/-- Where nothing is pending any more, the labels are final. -/
theorem finished (h : Scheduled host p e) (hu : Undisturbed p e.store.topology e')
    (hs : Spreading e.store.topology e.store.cells e') (hdone : e'.scheduler.tasks = []) :
    Finished e e' := by
  have ht := h.store.valid.topology
  have hlabels (v : VertexIndex) (hv : v < e.store.vertexCount) :=
    hs.smallestIn ht hu h.store.valid.vertices_size hdone hv
  refine ⟨hu.failures, Scheduler.size_eq_zero.mpr hdone, hu.active, hlabels, fun hids v hv => ?_⟩
  rw [← hids]
  exact hlabels v hv

end Scheduled

/-- If the program is scheduled on every vertex, a run with one worker ends, under every policy, and
every sequence of turns does, in whatever order tasks are handed out. In the end nothing has failed
or is pending, and every vertex has the smallest of the labels that its component had at first. -/
theorem components_correct (h : Scheduled host p e) :
    (∃ bound, ∀ steps ≥ bound, ∃ e', e.start host steps = some (.ok (), e') ∧ Finished e e') ∧
      ∃ bound, ∀ k e', (e.launch host).Turns host k e' →
        k ≤ bound ∧ (e'.scheduler.size = 0 → Finished e e') ∧
          (e'.scheduler.size ≠ 0 → ∃ e'', e'.Turn host e'') := by
  have ht := h.store.valid.topology
  obtain ⟨n, hvalid⟩ := h.scheduler.valid
  constructor
  · refine ⟨weight e.store.topology (e.launch host) + 1, fun steps hsteps => ?_⟩
    have hlaunch :
        (e.launch host).scheduler.Valid (max (e.config.resolvedWorkers host.processors) 1) :=
      hvalid.prepare _ _
    obtain ⟨e', hiterate, hu, hs, hdone⟩ :=
      exists_iterate host ht h.undisturbed h.spreading hlaunch hsteps
    have hclose := Engine.close_of_failures hu.failures host
    have hfinished := h.finished hu hs hdone
    refine ⟨(e'.close host).2, ?_, ?_⟩
    · have hn : ¬e.store.vertexCount = 0 := Nat.ne_of_gt h.nonempty
      simp only [Engine.start, h.ready, Engine.hasRoom_of_one h.workers, Bool.not_true,
        Bool.false_eq_true, if_false, if_neg hn, hiterate, Option.map_some, hclose]
    · rw [hclose]
      exact ⟨rfl, hfinished.pending, hfinished.active, hfinished.labels, hfinished.identifiers⟩
  · refine ⟨weight e.store.topology (e.launch host), fun k e' hturns => ?_⟩
    obtain ⟨hu, hs, hweight⟩ := of_turns ht h.undisturbed h.spreading hturns
    refine ⟨by omega, fun hsize => h.finished hu hs (Scheduler.size_eq_zero.mp hsize),
      fun hsize => ?_⟩
    obtain ⟨task, htask⟩ :=
      List.exists_mem_of_ne_nil _ fun hnil => hsize (Scheduler.size_eq_zero.mpr hnil)
    exact ⟨_, .run task e'.scheduler.agenda htask⟩

/-- An engine for a row of three vertices with the labels 7, 5 and 9. -/
def rowEngine : Engine UInt32 Unit Unit Unit where
  config := { workerThreads := 1 }
  programs _ := program
  memory := ()
  scheduler := .new .fifo 1
  phase := .configured
  store := .row 7 5 9 () ()

/-- Its run ends with the smallest label everywhere. -/
theorem components_correct_row : ∃ bound, ∀ steps ≥ bound, ∃ e',
    (Engine.scheduleAll () .zero rowEngine).2.start {} steps = some (.ok (), e') ∧
      Finished (Engine.scheduleAll () .zero rowEngine).2 e' := by
  have hanswer : Engine.scheduleAll () .zero rowEngine =
      (.ok (), (Engine.scheduleAll () .zero rowEngine).2) := rfl
  have hmanual : rowEngine.Manual := fun _ hr => absurd hr List.not_mem_nil
  have hscheduled : Scheduled {} () (Engine.scheduleAll () .zero rowEngine).2 :=
    Scheduled.of_scheduleAll (Store.row_built 7 5 9 () ()) ⟨.fifo, 1, [], rfl⟩ rfl rfl hmanual
      rfl hanswer
  exact (components_correct hscheduled).1

end Components

end VertexPrograms
