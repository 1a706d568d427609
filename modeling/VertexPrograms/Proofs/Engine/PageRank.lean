import Mathlib.Algebra.BigOperators.Ring.Finset
import Mathlib.Algebra.Order.BigOperators.Group.Finset
import VertexPrograms.Proofs.Engine.Delivery
import VertexPrograms.Proofs.Program.PageRank

/-!
# The ranking loses no residual

Each stage of a run gives its vertex the rank of the formula and, if the rank has moved by more than
the tolerance, asks for the vertices to which edges lead from it, itself included if it has a loop.
None of these requests is lost. So when the run ends, the rank of a vertex is what the formula came
to when it was looked at last, and no rank that the formula reads has moved by more than the
tolerance since. Nothing depends on the order of the tasks or on what doubles are.
-/

namespace VertexPrograms.PageRank

variable {E M P : Type} {host : Host} {e e' : Engine Float E M P} {r : PageRank} {p : P}
  {t : Topology}

/-- Nothing that is not part of the computation interferes, and nothing has failed. -/
structure Undisturbed (r : PageRank) (p : P) (t : Topology) (e : Engine Float E M P) : Prop where
  program : e.programs p = r.program
  manual : e.Manual
  topology : e.store.topology = t
  size : e.store.cells.vertices.size = t.vertexCount
  pending : ∀ v q, e.scheduler.programOf? v = some q → v < t.vertexCount ∧ q = p
  running : e.scheduler.aborted = false
  failures : e.failures = []
  scheduler : ∃ n, e.scheduler.Valid n

/-- By how much a stage moves the rank of its vertex. -/
def move (host : Host) (s : Engine.Stage Float E M P) : Float :=
  (rankOf (s.after host).store.cells s.task.vertex - rankOf s.engine.store.cells s.task.vertex).abs

/-- What one stage does. -/
structure Ranked (host : Host) (r : PageRank) (t : Topology) (s : Engine.Stage Float E M P) :
    Prop where
  vertex : s.task.vertex < t.vertexCount
  fault : (s.round host).fault = none
  rank : ∀ v, rankOf (s.after host).store.cells v =
    if v = s.task.vertex then r.formula t s.engine.store.cells v else rankOf s.engine.store.cells v
  asked : ∀ v, v ∈ (s.engine.published s.task).map (·.vertex) ↔
    move host s > r.tolerance ∧ t.Leads s.task.vertex v

/-- What is handed out is a task of the program for a vertex of the graph. -/
theorem Undisturbed.of_next (h : Undisturbed r p t e) {task : Task P} {scheduler : Scheduler P}
    (hnext : e.scheduler.next 0 = (.task task, scheduler)) :
    ∃ v priority agenda n, v < t.vertexCount ∧ task = ⟨v, priority, p⟩ ∧
      { e with scheduler } = e.handOut ⟨v, priority, p⟩ agenda ∧ scheduler.Valid n := by
  obtain ⟨n, hvalid⟩ := h.scheduler
  rcases hvalid.next_cases h.running 0 with ⟨-, agenda, -, hnone⟩ |
    ⟨v, q, agenda, hq, -, hvalid', -, htask⟩
  · have hanswer := (Prod.mk.inj (hnone.symm.trans hnext)).1
    split at hanswer <;> cases hanswer
  · obtain ⟨hanswer, rfl⟩ := Prod.mk.inj (htask.symm.trans hnext)
    have hprogram : e.scheduler.programOf? v = some q.program := by
      rw [Scheduler.programOf?, hq]; rfl
    obtain ⟨hv, rfl⟩ := h.pending v _ hprogram
    exact ⟨v, q.priority, agenda, n, hv, (Handout.task.inj hanswer).symm, rfl, hvalid'⟩

/-- Every stage ranks a vertex of the graph, and disturbs nothing. -/
theorem ranked_of_next (host : Host) (ht : t.Valid) (h : Undisturbed r p t e) {task : Task P}
    {scheduler : Scheduler P} (hnext : e.scheduler.next 0 = (.task task, scheduler)) :
    Ranked host r t ⟨{ e with scheduler }, task⟩ ∧
      Undisturbed r p t (Engine.execute host { e with scheduler } task) := by
  obtain ⟨v, priority, agenda, n, hv, rfl, hhand, hvalid⟩ := h.of_next hnext
  obtain rfl := h.topology
  let task : Task P := ⟨v, priority, p⟩
  let e₁ := e.handOut task agenda
  obtain ⟨cells, requests, hrun, hsize, hrank, hrequests, hasked⟩ :=
    exists_run_update (s := e₁.scopeOf task) r ht h.size hv p e.globals e.memory
  rw [← h.program] at hrun
  have hmanual : e₁.Manual := h.manual
  have hexecute := hmanual.execute host hrun
  have hending : e₁.ending task = (none, ⟨cells, e.globals, e.memory, requests⟩) := hrun
  have hafter (u : VertexIndex) : rankOf (e₁.execute host task).store.cells u =
      if u = v then r.formula e.store.topology e.store.cells u else rankOf e.store.cells u := by
    rw [hexecute]
    exact hrank u
  have hvalid₁ : e₁.scheduler.Valid n := congrArg Engine.scheduler hhand ▸ hvalid
  have hvalid' := Engine.valid_execute hvalid₁ host task
  rw [hhand]
  constructor
  · have hmove :
        move host ⟨e₁, task⟩ =
          (r.formula e.store.topology e.store.cells v - rankOf e.store.cells v).abs :=
      congrArg (fun x => (x - rankOf e.store.cells v).abs) ((hafter v).trans (if_pos rfl))
    refine ⟨hv, congrArg Prod.fst hending, hafter, fun u => ?_⟩
    rw [hmove, Engine.published, hending]
    exact hasked u
  · have hpending : ∀ u q, (e₁.scheduler.pushAll requests.toList).programOf? u = some q →
        u < e.store.topology.vertexCount ∧ q = p :=
      Scheduler.forall_programOf?_pushAll (fun u q hq =>
        h.pending u q (Scheduler.programOf?_of_erase rfl hq)) hrequests
    change Undisturbed r p e.store.topology (e₁.execute host task)
    rw [hexecute] at hvalid' ⊢
    exact ⟨h.program, h.manual, rfl, hsize.trans h.size, hpending,
      (Scheduler.aborted_pushAll _ _).trans h.running, h.failures, n, hvalid'⟩

/-- All stages of a run do so. -/
theorem ranked_of_comes (ht : t.Valid) (h : Undisturbed r p t e)
    {ss : List (Engine.Stage Float E M P)} (hcomes : Engine.Comes host e ss e') :
    Undisturbed r p t e' ∧ ∀ s ∈ ss, Ranked host r t s := by
  induction hcomes with
  | here => exact ⟨h, List.forall_mem_nil _⟩
  | on _ hnext ih =>
    obtain ⟨h, hss⟩ := ih
    obtain ⟨hranked, h⟩ := ranked_of_next host ht h hnext
    exact ⟨h, List.forall_mem_append.mpr ⟨hss, List.forall_mem_singleton.mpr hranked⟩⟩

/-- A vertex that is not looked at keeps its rank. -/
theorem rankOf_of_comes (ht : t.Valid) (h : Undisturbed r p t e)
    {ss : List (Engine.Stage Float E M P)} (hcomes : Engine.Comes host e ss e') {v : VertexIndex}
    (hss : ∀ s ∈ ss, s.task.vertex ≠ v) : rankOf e'.store.cells v = rankOf e.store.cells v := by
  induction hcomes with
  | here => rfl
  | on hcomes hnext ih =>
    obtain ⟨hss, hlast⟩ := List.forall_mem_append.mp hss
    obtain ⟨hranked, -⟩ := ranked_of_next host ht (ranked_of_comes ht h hcomes).1 hnext
    have hv := List.forall_mem_singleton.mp hlast
    exact ((hranked.rank v).trans (if_neg (Ne.symm hv))).trans (ih hss)

/-- The engine is about to run the program on every vertex, with one worker. -/
structure Scheduled (host : Host) (r : PageRank) (p : P) (e : Engine Float E M P) : Prop where
  store : e.store.Built
  scheduler : e.scheduler.Reachable
  program : e.programs p = r.program
  tasks : ∀ v, e.scheduler.programOf? v = if v < e.store.vertexCount then some p else none
  manual : e.Manual
  nonempty : 0 < e.store.vertexCount
  ready : e.phase.isReady = true
  workers : e.config.resolvedWorkers host.processors = 1

/-- So is an engine without pending tasks once the program has been scheduled on all vertices. -/
theorem Scheduled.of_scheduleAll {priority : Priority} (hstore : e.store.Built)
    (hscheduler : e.scheduler.Reachable) (hempty : e.scheduler.size = 0)
    (hprogram : e.programs p = r.program) (hmanual : e.Manual)
    (hworkers : e.config.resolvedWorkers host.processors = 1)
    (h : Engine.scheduleAll p priority e = (.ok (), e')) : Scheduled host r p e' := by
  obtain ⟨ts, rfl, hnonempty, hready, htasks⟩ := Engine.of_scheduleAll hempty h
  exact ⟨hstore, hscheduler.pushAll ts, hprogram, htasks, hmanual, hnonempty, hready, hworkers⟩

/-- What the stages of a run come to that has ended in `e'`. -/
structure Converged (host : Host) (r : PageRank) (t : Topology)
    (ss : List (Engine.Stage Float E M P)) (e' : Engine Float E M P) : Prop where
  /-- No update fails. -/
  faults : ∀ s ∈ ss, (s.round host).fault = none
  failures : e'.failures = []
  /-- If the rank of a vertex moves by more than the tolerance, the vertices to which edges lead
  from it are looked at later. -/
  followed : ∀ before s after, ss = before ++ s :: after → move host s > r.tolerance →
    ∀ v, t.Leads s.task.vertex v → ∃ s' ∈ after, s'.task.vertex = v
  /-- Every vertex has a last stage. It ends with the rank that the formula gives for what it found
  then, and from this stage on no in-neighbour moves by more than the tolerance. -/
  settled : ∀ v < t.vertexCount, ∃ before s after, ss = before ++ s :: after ∧ s.task.vertex = v ∧
    (∀ s' ∈ after, s'.task.vertex ≠ v) ∧
    e'.store.cells.vertices[v]? = some (r.formula t s.engine.store.cells v) ∧
    ∀ s' ∈ s :: after, t.Leads s'.task.vertex v → ¬move host s' > r.tolerance

/-- A list with an element that has a property has a last one. -/
private theorem exists_last {α : Type} {q : α → Prop} {l : List α} (h : ∃ a ∈ l, q a) :
    ∃ before a after, l = before ++ a :: after ∧ q a ∧ ∀ b ∈ after, ¬q b := by
  induction l with
  | nil => simp at h
  | cons a l ih =>
    by_cases hl : ∃ b ∈ l, q b
    · obtain ⟨before, b, after, rfl, hb⟩ := ih hl
      exact ⟨a :: before, b, after, rfl, hb⟩
    · exact ⟨[], a, l, rfl, by simpa [hl] using h, by simpa using hl⟩

/-- A run that has been prepared is undisturbed at first. -/
theorem Scheduled.undisturbed (h : Scheduled host r p e) :
    Undisturbed r p e.store.topology (e.launch host) where
  program := h.program
  manual := h.manual
  topology := rfl
  size := h.store.valid.vertices_size
  pending v q hq := by
    have htasks : e.scheduler.programOf? v = some q := hq
    rw [h.tasks] at htasks
    split at htasks
    · exact ⟨‹_›, (Option.some.inj htasks).symm⟩
    · cases htasks
  running := rfl
  failures := rfl
  scheduler := by
    obtain ⟨n, hvalid⟩ := h.scheduler.valid
    exact ⟨_, hvalid.prepare _ _⟩

/-- In a run that ends, no request is lost. -/
private theorem Undisturbed.followed (ht : t.Valid) (h : Undisturbed r p t e) {steps : Nat}
    (hiterate : Engine.iterate host steps e = some e') (hrunning : e'.scheduler.aborted = false)
    {before after : List (Engine.Stage Float E M P)} {s : Engine.Stage Float E M P}
    (hstages : Engine.stages host steps e = before ++ s :: after)
    (hmove : move host s > r.tolerance) {v : VertexIndex} (hv : t.Leads s.task.vertex v) :
    ∃ s' ∈ after, s'.task.vertex = v := by
  obtain ⟨n, hvalid⟩ := h.scheduler
  obtain ⟨_, hthere, -⟩ := Engine.iterate_after hvalid hiterate hstages
  have hranked := (ranked_of_comes ht h hthere).2 s (by simp)
  exact Engine.exists_later_stage hvalid hiterate hrunning hstages
    ((hranked.asked v).mpr ⟨hmove, hv⟩)

/-- The rank of a vertex is in the end what its last stage has made it. -/
private theorem Undisturbed.rankOf_last (ht : t.Valid) (h : Undisturbed r p t e) {steps : Nat}
    (hiterate : Engine.iterate host steps e = some e')
    {before after : List (Engine.Stage Float E M P)} {s : Engine.Stage Float E M P}
    (hstages : Engine.stages host steps e = before ++ s :: after)
    (hafter : ∀ s' ∈ after, s'.task.vertex ≠ s.task.vertex) :
    rankOf e'.store.cells s.task.vertex = r.formula t s.engine.store.cells s.task.vertex := by
  obtain ⟨n, hvalid⟩ := h.scheduler
  obtain ⟨steps', hthere, -, rfl, hiterate'⟩ := Engine.iterate_after hvalid hiterate hstages
  obtain ⟨hs, hranked⟩ := ranked_of_comes ht h hthere
  obtain ⟨last, -, scheduler, hon, -, -, rfl, -⟩ := Engine.comes_of_iterate hiterate'
  have hkept : rankOf last.store.cells s.task.vertex =
      rankOf (s.after host).store.cells s.task.vertex :=
    rankOf_of_comes ht hs hon hafter
  exact hkept.trans (((hranked s (by simp)).rank _).trans (if_pos rfl))

/-- If every large move is followed by stages of the vertices to which edges lead, a vertex whose
last stage has come has no in-neighbour that moves much from then on. -/
private theorem not_move_of_followed {ss : List (Engine.Stage Float E M P)}
    (hfollowed : ∀ before s after, ss = before ++ s :: after → move host s > r.tolerance →
      ∀ v, t.Leads s.task.vertex v → ∃ s' ∈ after, s'.task.vertex = v)
    {before after : List (Engine.Stage Float E M P)} {s s' : Engine.Stage Float E M P}
      {v : VertexIndex}
    (hss : ss = before ++ s :: after) (hafter : ∀ s' ∈ after, s'.task.vertex ≠ v)
      (hs' : s' ∈ s :: after)
    (hv : t.Leads s'.task.vertex v) : ¬move host s' > r.tolerance := by
  intro hmove
  rcases List.mem_cons.mp hs' with rfl | hs'
  · obtain ⟨s'', hs'', hlater⟩ := hfollowed before s' after hss hmove v hv
    exact hafter s'' hs'' hlater
  · obtain ⟨between, rest, rfl⟩ := List.append_of_mem hs'
    have hss' : ss = (before ++ s :: between) ++ s' :: rest := by simpa using hss
    obtain ⟨s'', hs'', hlater⟩ := hfollowed _ s' rest hss' hmove v hv
    exact hafter s'' (by simp [hs'']) hlater

/-- What a run from an undisturbed engine comes to, in which every vertex is pending. -/
theorem Undisturbed.converged (ht : t.Valid) (h : Undisturbed r p t e)
    (hpending : ∀ v < t.vertexCount, (e.scheduler.programOf? v).isSome = true) {steps : Nat}
    (hiterate : Engine.iterate host steps e = some e') :
    Converged host r t (Engine.stages host steps e) e' := by
  obtain ⟨n, hvalid⟩ := h.scheduler
  obtain ⟨last, answer, scheduler, hcomes, hnext, hend, hlast, -⟩ :=
    Engine.comes_of_iterate hiterate
  obtain ⟨hundisturbed, hranked⟩ := ranked_of_comes ht h hcomes
  obtain ⟨agenda, rfl⟩ := Scheduler.next_of_not_task hnext hend
  have hrunning : e'.scheduler.aborted = false := hlast ▸ hundisturbed.running
  have hsize : e'.store.cells.vertices.size = t.vertexCount := hlast ▸ hundisturbed.size
  have hfollowed (before : List (Engine.Stage Float E M P)) (s : Engine.Stage Float E M P)
      (after : List (Engine.Stage Float E M P))
      (hstages : Engine.stages host steps e = before ++ s :: after)
      (hmove : move host s > r.tolerance) (v : VertexIndex) (hv : t.Leads s.task.vertex v) :
      ∃ s' ∈ after, s'.task.vertex = v := h.followed ht hiterate hrunning hstages hmove hv
  refine ⟨fun s hs => (hranked s hs).fault, hlast ▸ hundisturbed.failures, hfollowed,
    fun v hv => ?_⟩
  obtain ⟨before, s, after, hstages, rfl, hafter⟩ :=
    exists_last (Engine.exists_stage hvalid hiterate hrunning (hpending v hv))
  refine ⟨before, s, after, hstages, rfl, hafter, ?_, fun s' hs' hleads => ?_⟩
  · exact (getElem?_eq_rankOf hsize hv).trans
      (congrArg some (h.rankOf_last ht hiterate hstages hafter))
  · exact not_move_of_followed hfollowed hstages hafter hs' hleads

/-! # Graphs without cycles -/

/-- A vertex counts for more than all the vertices together to which edges lead from it. -/
def weight (t : Topology) (height : VertexIndex → Nat) (e : Engine Float E M P) : Nat :=
  ∑ v ∈ (Finset.range t.vertexCount).filter (fun v => (e.scheduler.programOf? v).isSome = true),
    (t.vertexCount + 1) ^ height v

/-- If edges lead downwards, all vertices to which edges lead from a vertex count for less than it.
-/
private theorem sum_outNeighbours_lt (ht : t.Valid) {height : VertexIndex → Nat}
    (hdown : ∀ u v, t.Leads u v → height v < height u) (v : VertexIndex) :
    ∑ u ∈ (t.outNeighbours v).toFinset, (t.vertexCount + 1) ^ height u <
      (t.vertexCount + 1) ^ height v := by
  let n := t.vertexCount
  let below := (t.outNeighbours v).toFinset
  have hleads (u : VertexIndex) (hu : u ∈ below) : t.Leads v u :=
    Topology.mem_outNeighbours.mp (List.mem_toFinset.mp hu)
  have hcard : below.card ≤ n := by
    have hsubset : below ⊆ Finset.range n :=
      fun u hu => Finset.mem_range.mpr (ht.joins_lt (hleads u hu).joins).2
    exact (Finset.card_le_card hsubset).trans_eq (Finset.card_range n)
  have hterm (u : VertexIndex) (hu : u ∈ below) :
      (n + 1) ^ height u * (n + 1) ≤ (n + 1) ^ height v := by
    rw [← Nat.pow_succ]
    exact Nat.pow_le_pow_right n.succ_pos (hdown v u (hleads u hu))
  refine Nat.lt_of_mul_lt_mul_right (a := n + 1) ?_
  calc (∑ u ∈ below, (n + 1) ^ height u) * (n + 1)
      = ∑ u ∈ below, (n + 1) ^ height u * (n + 1) := Finset.sum_mul ..
    _ ≤ below.card * (n + 1) ^ height v := Finset.sum_le_card_nsmul below _ _ hterm
    _ ≤ n * (n + 1) ^ height v := Nat.mul_le_mul_right _ hcard
    _ < (n + 1) ^ height v * (n + 1) := by
      rw [Nat.mul_comm n]
      exact Nat.mul_lt_mul_of_pos_left n.lt_succ_self (Nat.pow_pos n.succ_pos)

/-- What is pending after a stage was pending before, or an edge leads to it. -/
theorem pending_of_next (host : Host) (ht : t.Valid) (h : Undisturbed r p t e) {task : Task P}
    {scheduler : Scheduler P} (hnext : e.scheduler.next 0 = (.task task, scheduler))
    {u : VertexIndex}
    (hu : ((Engine.execute host { e with scheduler } task).scheduler.programOf? u).isSome = true) :
    u ≠ task.vertex ∧ (e.scheduler.programOf? u).isSome = true ∨ t.Leads task.vertex u := by
  obtain ⟨hranked, hafter⟩ := ranked_of_next host ht h hnext
  have hgo : (Engine.execute host { e with scheduler } task).scheduler.aborted ≠ true :=
    fun ha => Bool.false_ne_true (hafter.running.symm.trans ha)
  rcases (Engine.isSome_programOf?_execute hgo u).mp hu with hold | hnew
  · obtain ⟨-, _, agenda, -, rfl⟩ := Scheduler.next_of_task hnext
    have hleft : (e.handOut task agenda).scheduler.programOf? u =
        if task.vertex = u then none else e.scheduler.programOf? u :=
          Scheduler.programOf?_erase rfl u
    have hold : ((e.handOut task agenda).scheduler.programOf? u).isSome = true := hold
    rw [hleft] at hold
    split at hold
    · cases hold
    · rename_i hne
      exact .inl ⟨Ne.symm hne, hold⟩
  · exact .inr ((hranked.asked u).mp hnew).2

/-- If edges lead downwards, a stage lowers the weight of the pending vertices. -/
theorem weight_lt (host : Host) (ht : t.Valid) {height : VertexIndex → Nat}
    (hdown : ∀ u v, t.Leads u v → height v < height u) (h : Undisturbed r p t e) {task : Task P}
    {scheduler : Scheduler P} (hnext : e.scheduler.next 0 = (.task task, scheduler)) :
    weight t height (Engine.execute host { e with scheduler } task) < weight t height e := by
  let v := task.vertex
  let e' := Engine.execute host { e with scheduler } task
  let count (u : VertexIndex) : Nat := (t.vertexCount + 1) ^ height u
  let pending (e : Engine Float E M P) : Finset VertexIndex :=
    (Finset.range t.vertexCount).filter fun u => (e.scheduler.programOf? u).isSome = true
  let below := (t.outNeighbours v).toFinset
  have hv : v ∈ pending e := by
    obtain ⟨-, q, _, hq, -⟩ := Scheduler.next_of_task hnext
    refine Finset.mem_filter.mpr ⟨Finset.mem_range.mpr (ranked_of_next host ht h hnext).1.vertex,
      ?_⟩
    rw [Scheduler.programOf?, hq]
    rfl
  have hsubset : pending e' ⊆ (pending e).erase v ∪ below := fun u hu => by
    obtain ⟨hrange, hu⟩ := Finset.mem_filter.mp hu
    rcases pending_of_next host ht h hnext hu with ⟨hne, hold⟩ | hleads
    · exact Finset.mem_union_left _ (Finset.mem_erase.mpr ⟨hne,
        Finset.mem_filter.mpr ⟨hrange, hold⟩⟩)
    · exact Finset.mem_union_right _ (List.mem_toFinset.mpr (Topology.mem_outNeighbours.mpr hleads))
  calc weight t height e'
      ≤ ∑ u ∈ (pending e).erase v ∪ below, count u := Finset.sum_le_sum_of_subset hsubset
    _ ≤ ∑ u ∈ (pending e).erase v, count u + ∑ u ∈ below, count u := by
      rw [← Finset.sum_union_inter]
      exact Nat.le_add_right _ _
    _ < ∑ u ∈ (pending e).erase v, count u + count v :=
      Nat.add_lt_add_left (sum_outNeighbours_lt ht hdown v) _
    _ = weight t height e := Finset.sum_erase_add _ _ hv

/-- If edges lead downwards, a run that may take more steps than the weight ends. -/
theorem exists_iterate (host : Host) (ht : t.Valid) {height : VertexIndex → Nat}
    (hdown : ∀ u v, t.Leads u v → height v < height u) {steps : Nat} (h : Undisturbed r p t e)
    (hsteps : weight t height e < steps) : ∃ e', Engine.iterate host steps e = some e' := by
  induction steps generalizing e with
  | zero => omega
  | succ steps ih =>
    rcases hnext : e.scheduler.next 0 with ⟨answer, scheduler⟩
    cases answer with
    | task t =>
      rw [Engine.iterate_of_task host steps hnext]
      have hlt := weight_lt host ht hdown h hnext
      exact ih (ranked_of_next host ht h hnext).2 (by omega)
    | finished | blocked => exact ⟨_, Engine.iterate_of_not_task host steps hnext (by simp)⟩

/-- On a graph without cycles every run ends, whatever the ranks are. -/
theorem Scheduled.exists_start (h : Scheduled host r p e) {height : VertexIndex → Nat}
    (hdown : ∀ u v, e.store.topology.Leads u v → height v < height u) :
    ∃ steps answer e', e.start host steps = some (answer, e') := by
  let bound := weight e.store.topology height (e.launch host)
  obtain ⟨last, hiterate⟩ :=
    exists_iterate host h.store.valid.topology hdown h.undisturbed bound.lt_succ_self
  refine ⟨bound + 1, (last.close host).1, (last.close host).2, ?_⟩
  rw [Engine.start_eq h.ready h.nonempty.ne' (Engine.hasRoom_of_one h.workers), hiterate]
  rfl

/-! # The main theorem -/

/-- If the program is scheduled on every vertex, a run by one worker that ends, under every policy,
loses no residual: no update fails, every move of a rank by more than the tolerance is followed by
updates of the vertices to which edges lead, and in the end every vertex has the rank that the
formula gives for what it found at its last update, since when no in-neighbour has moved by more
than the tolerance in an update. -/
theorem loses_no_residual (h : Scheduled host r p e) {steps : Nat} {answer : Except Error Unit}
    (hstart : e.start host steps = some (answer, e')) :
    answer = .ok () ∧
    Converged host r e.store.topology (Engine.stages host steps (e.launch host)) e' := by
  obtain ⟨last, hiterate, hclose⟩ :=
    Engine.start_eq_some h.ready h.nonempty.ne' (Engine.hasRoom_of_one h.workers) hstart
  have hpending (v : VertexIndex) (hv : v < e.store.topology.vertexCount) :
      ((e.launch host).scheduler.programOf? v).isSome = true := by
    have htasks := h.tasks v
    rw [if_pos (show v < e.store.vertexCount from hv)] at htasks
    exact Option.isSome_of_eq_some htasks
  have hconverged := h.undisturbed.converged h.store.valid.topology hpending hiterate
  rw [Engine.close_of_failures hconverged.failures] at hclose
  obtain ⟨rfl, rfl⟩ := Prod.mk.inj hclose
  exact ⟨rfl, hconverged.faults, rfl, hconverged.followed, hconverged.settled⟩

/-- An engine for three vertices in a row, with edges to the middle one from either end. -/
def rowEngine : Engine Float Unit Unit Unit where
  config := { workerThreads := 1 }
  programs _ := ({} : PageRank).program
  memory := ()
  scheduler := .new .priority 1
  phase := .configured
  store := .row 1 2 4 () ()

/-- It runs to an end that loses no residual. -/
theorem loses_no_residual_row : ∃ steps answer e',
    (Engine.scheduleAll () .zero rowEngine).2.start {} steps = some (answer, e') ∧ answer = .ok () ∧
      Converged {} {} rowEngine.store.topology
        (Engine.stages {} steps ((Engine.scheduleAll () .zero rowEngine).2.launch {})) e' := by
  let e := (Engine.scheduleAll () .zero rowEngine).2
  have hanswer : Engine.scheduleAll () .zero rowEngine = (.ok (), e) := rfl
  have hmanual : rowEngine.Manual := fun _ hr => absurd hr List.not_mem_nil
  have hscheduled : Scheduled {} {} () e :=
    Scheduled.of_scheduleAll (Store.row_built 1 2 4 () ()) ⟨.priority, 1, [], rfl⟩ rfl rfl hmanual
      rfl hanswer
  have hdown (u v : VertexIndex) (h : e.store.topology.Leads u v) :
      (if v = 1 then 0 else 1) < if u = 1 then 0 else 1 := by
    have h : (u, v) ∈ [(0, 1), (2, 1)] := h
    rcases (by simpa using h : u = 0 ∧ v = 1 ∨ u = 2 ∧ v = 1) with ⟨rfl, rfl⟩ |
      ⟨rfl, rfl⟩ <;> decide
  obtain ⟨steps, answer, e', hstart⟩ := hscheduled.exists_start hdown
  exact ⟨steps, answer, e', hstart, loses_no_residual hscheduled hstart⟩

end VertexPrograms.PageRank
