import VertexPrograms.Proofs.Engine.Team
import VertexPrograms.Proofs.Scheduler.Table

/-!
# Runs stay in the graph

A scheduler keeps bare positions of vertices, and so do the workers of a run with their tasks, locks
and requests. In every state of every run these positions are of vertices of the graph, the shape of
which is that with which the run began. So everything that a worker, a failure report or a pass
looks up by position is there.
-/

namespace VertexPrograms

variable {V E M P : Type}

/-! # Schedulers for a number of vertices -/

namespace Scheduler

/-- The agenda is in step with the table of pending tasks, and these are for so many vertices. -/
structure Fits (s : Scheduler P) (count : Nat) : Prop where
  sound : s.Sound
  within : ∀ v p, s.pending[v]? = some p → v < count

namespace Fits

variable {s : Scheduler P} {count : Nat}

theorem new (policy : Policy) (partitions count : Nat) :
    (Scheduler.new policy partitions : Scheduler P).Fits count :=
  ⟨(Valid.new policy partitions).toSound, fun v p hp => by simp [Scheduler.new] at hp⟩

theorem mono (h : s.Fits count) {count' : Nat} (hle : count ≤ count') : s.Fits count' :=
  ⟨h.sound, fun v p hp => Nat.lt_of_lt_of_le (h.within v p hp) hle⟩

/-- Pending tasks are for vertices that are there. -/
theorem of_mem (h : s.Fits count) {t : Task P} (ht : t ∈ s.tasks) : t.vertex < count := by
  obtain ⟨p, hp, -⟩ := Option.map_eq_some_iff.mp (programOf?_of_mem ht)
  exact h.within _ p hp

/-- A task for a vertex that is there keeps the scheduler fitting. -/
theorem push (h : s.Fits count) {t : Task P} (ht : t.vertex < count) : (s.push t).2.Fits count := by
  refine ⟨h.sound.push t, fun v p hp => ?_⟩
  cases hq : s.pending[t.vertex]? with
  | none =>
    rw [push_of_none hq] at hp
    dsimp only at hp
    rw [lookup_insert] at hp
    split at hp
    · exact ‹t.vertex = v› ▸ ht
    · exact h.within v p hp
  | some q =>
    obtain ⟨pending, agenda, hpush, hlookup⟩ := push_of_some hq
    rw [hpush] at hp
    dsimp only at hp
    rw [hlookup] at hp
    split at hp
    · exact ‹t.vertex = v› ▸ ht
    · exact h.within v p hp

theorem pushAll (h : s.Fits count) {ts : List (Task P)} (hts : ∀ t ∈ ts, t.vertex < count) :
    (s.pushAll ts).Fits count := by
  induction ts generalizing s with
  | nil => exact h
  | cons t ts ih =>
    exact ih (h.push (hts t List.mem_cons_self)) fun q hq => hts q (List.mem_cons_of_mem t hq)

/-- A scheduler that has asked for a task fits, and so does the task it hands out. -/
theorem next (h : s.Fits count) {worker : Nat} {answer : Handout P} {s' : Scheduler P}
    (hnext : s.next worker = (answer, s')) : s'.Fits count ∧ ∀ t, answer = .task t →
    t.vertex < count := by
  have hsound : s'.Sound := by
    have hsound := h.sound.next worker
    rwa [hnext] at hsound
  by_cases htask : ∃ t, answer = .task t
  · obtain ⟨t, rfl⟩ := htask
    obtain ⟨-, q, agenda, hq, rfl⟩ := next_of_task hnext
    refine ⟨⟨hsound, fun v p hp => ?_⟩, fun u hu => ?_⟩
    · dsimp only at hp
      rw [lookup_erase] at hp
      split at hp
      · cases hp
      · exact h.within v p hp
    · exact Handout.task.inj hu ▸ h.within _ q hq
  · obtain ⟨agenda, rfl⟩ := next_of_not_task hnext fun t ht => htask ⟨t, ht⟩
    exact ⟨⟨hsound, h.within⟩, fun t ht => absurd ⟨t, ht⟩ htask⟩

theorem complete (h : s.Fits count) : s.complete.Fits count :=
  ⟨h.sound.complete, h.within⟩

/-- A scheduler with nothing pending fits any number of vertices. -/
theorem clear (h : s.Fits count) (count' : Nat) : s.clear.Fits count' :=
  ⟨h.sound.clear, fun v p hp => by simp [Scheduler.clear] at hp⟩

theorem abort (h : s.Fits count) : s.abort.Fits count :=
  ⟨h.sound.abort, fun v p hp => by simp [Scheduler.abort, Scheduler.clear] at hp⟩

theorem rewind (h : s.Fits count) (policy : Policy) : (s.rewind policy).Fits count :=
  ⟨h.sound.rewind policy, h.within⟩

theorem prepare (h : s.Fits count) (policy : Policy) (partitions : Nat) :
    (s.prepare policy partitions).Fits count :=
  ⟨(h.sound.prepare policy partitions).toSound, h.within⟩

end Fits

end Scheduler

/-! # What is looked up by position -/

/-- There is data in a cell. -/
def Cells.Has (c : Cells V E) : Cell → Prop
  | .vertex i => i < c.vertices.size
  | .edge e => e < c.edges.size

namespace Store

variable {g : Store V E} {v : VertexIndex}

/-- Everything is there that is looked up when a vertex is locked, updated or reported. -/
structure Covers (g : Store V E) (v : VertexIndex) : Prop where
  id : (g.topology.idAt? v).isSome = true
  rows : v < g.topology.outgoing.size ∧ v < g.topology.incoming.size ∧ v < g.topology.adjacent.size
  neighbours : ∀ j ∈ g.topology.adjacentOf v, j < g.vertexCount
  edges : ∀ e ∈ g.topology.outgoingOf v ++ g.topology.incomingOf v,
    ∃ i j, g.topology.endpoints? e = some (i, j) ∧ i < g.vertexCount ∧ j < g.vertexCount
  locks : ∀ (level : Consistency), ∀ l ∈ (Scope.mk g.topology v level).lockSet,
    l.vertex < g.vertexCount
  cells : ∀ (level : Consistency) (a : Access V E) (k : Cell),
    (Scope.mk g.topology v level).cell? a = some k → g.cells.Has k

/-- Everything is there that is looked up in a pass over the graph. -/
structure Passable (g : Store V E) : Prop where
  vertices : ∀ i < g.vertexCount, (g.topology.idAt? i).isSome = true ∧ g.cells.Has (.vertex i)
  edges : ∀ e < g.edgeCount, g.cells.Has (.edge e) ∧ ∃ i j, g.topology.endpoints? e = some (i, j) ∧
    (g.topology.idAt? i).isSome = true ∧ (g.topology.idAt? j).isSome = true

/-- A position below the number of vertices has an identifier. -/
theorem idAt?_isSome (hv : v < g.vertexCount) : (g.topology.idAt? v).isSome = true := by
  rw [Topology.idAt?, Array.getElem?_eq_getElem hv, Option.isSome_some]

/-- The edges in a row have ends. -/
private theorem ends_of_mem (h : g.Valid) {e : EdgeIndex} {rows : Array (Array EdgeIndex)}
    {side : VertexIndex × VertexIndex → VertexIndex}
    (hrows : Topology.Rows g.topology.edges g.topology.vertexCount side rows)
    (he : e ∈ ((rows[v]?).getD #[]).toList) :
    ∃ i j, g.topology.endpoints? e = some (i, j) ∧ i < g.vertexCount ∧ j < g.vertexCount := by
  obtain ⟨⟨i, j⟩, hij, -⟩ := (hrows.mem v e).mp he
  exact ⟨i, j, hij, h.topology.bounds (i, j) e hij⟩

/-- A valid store covers each vertex that is there. -/
theorem Valid.covers (h : g.Valid) (hv : v < g.vertexCount) : g.Covers v where
  id := idAt?_isSome hv
  rows := ⟨h.topology.outgoing.size ▸ hv, h.topology.incoming.size ▸ hv,
    h.topology.adjacent_size ▸ hv⟩
  neighbours j hj := (h.topology.adjacent_lt hj).2
  edges e he := by
    rcases List.mem_append.mp he with he | he
    · exact ends_of_mem h h.topology.outgoing he
    · exact ends_of_mem h h.topology.incoming he
  locks level l hl := by
    rcases Scope.mem_lockSet.mp hl with rfl | ⟨-, hl⟩
    · exact hv
    · exact (h.topology.adjacent_lt hl).2
  cells level a k hk := by
    cases k with
    | vertex i =>
      change i < g.cells.vertices.size
      rw [h.vertices_size]
      rcases Scope.of_cell?_vertex hk with hi | ⟨hi, -⟩
      · exact hi ▸ hv
      · exact (h.topology.adjacent_lt hi).2
    | edge e =>
      obtain ⟨i, j, he, -⟩ := Scope.of_cell?_edge h.topology hk
      change e < g.cells.edges.size
      rw [h.edges_size]
      exact (Array.getElem?_eq_some_iff.mp he).1

/-- A valid store has data for every position that a pass visits. -/
theorem Valid.passable (h : g.Valid) : g.Passable where
  vertices i hi := ⟨idAt?_isSome hi, (h.vertices_size ▸ hi : i < g.cells.vertices.size)⟩
  edges e he := by
    refine ⟨(h.edges_size ▸ he : e < g.cells.edges.size), ?_⟩
    have hends : g.topology.edges[e]? = some g.topology.edges[e] := Array.getElem?_eq_getElem he
    obtain ⟨hi, hj⟩ := h.topology.bounds _ e hends
    exact ⟨_, _, hends, idAt?_isSome hi, idAt?_isSome hj⟩

end Store

/-! # Teams -/

/-- An access does not change the number of cells. -/
theorem Cells.size_perform (c : Cells V E) (s : Scope) (a : Access V E) :
    (c.perform s a).2.vertices.size = c.vertices.size ∧
    (c.perform s a).2.edges.size = c.edges.size := by
  cases a <;> rw [perform] <;> (try split) <;> simp [modifyVertex, modifyEdge]

/-- The tasks that a request stands for are for vertices of the graph. -/
theorem Update.lt_of_tasksOf {s : Scope} (h : s.topology.Valid) {self : P} {q : Request P}
    {ts : List (Task P)} (hts : tasksOf s self q = .ok ts) :
    ∀ t ∈ ts, t.vertex < s.topology.vertexCount := by
  cases q with
  | vertex id program priority =>
    rw [tasksOf] at hts
    cases hid : s.topology.require id with
    | error e => simp [hid] at hts
    | ok i =>
      rw [hid] at hts
      obtain rfl := Except.ok.inj hts
      simpa using h.require_lt hid
  | neighbours priority =>
    obtain rfl := Except.ok.inj hts
    intro t ht
    obtain ⟨i, hi, rfl⟩ := List.mem_map.mp ht
    exact (h.adjacent_lt hi).2

namespace Thread

variable {th : Thread V E M P} {st : Shared V E M}

theorem size_step (th : Thread V E M P) (st : Shared V E M) :
    (th.step st).2.cells.vertices.size = st.cells.vertices.size ∧
      (th.step st).2.cells.edges.size = st.cells.edges.size := by
  cases hrest : th.rest with
  | access call next => simpa [step, hrest] using Cells.size_perform st.cells th.scope call
  | _ => simp [step, hrest]

/-- What an update asks for is for vertices of the graph. -/
theorem requests_step (h : th.scope.topology.Valid)
    (hreq : ∀ t ∈ th.requests.toList, t.vertex < th.scope.topology.vertexCount) :
    ∀ t ∈ (th.step st).1.requests.toList, t.vertex < th.scope.topology.vertexCount := by
  cases hrest : th.rest with
  | request q next =>
    simp only [step, hrest, resume, Update.State.request, state]
    cases hts : Update.tasksOf th.scope th.self q with
    | error e => exact hreq
    | ok ts =>
      intro t ht
      rcases List.mem_append.mp (Array.toList_appendList ▸ ht) with ht | ht
      · exact hreq t ht
      · exact Update.lt_of_tasksOf h hts t ht
  | _ => simpa [step, hrest, resume] using hreq

/-- An update that has ended reports the requests it has made. -/
theorem requests_of_report {report : Report P} (h : th.report? = some report) :
    report.requests = th.requests := by
  cases hrest : th.rest <;> simp_all [report?]
  all_goals exact h ▸ rfl

end Thread

/-- What a worker of a run has to do with is in the graph. -/
def Duty.Within (t : Topology) : Duty V E M P → Prop
  | .locking task ls => task.vertex < t.vertexCount ∧ ∀ l ∈ ls, l.vertex < t.vertexCount
  | .updating task th =>
    task.vertex < t.vertexCount ∧ th.scope.topology = t ∧ th.scope.centre = task.vertex ∧
    ∀ q ∈ th.requests.toList, q.vertex < t.vertexCount
  | .publishing task _ qs => task.vertex < t.vertexCount ∧ ∀ q ∈ qs, q.vertex < t.vertexCount
  | .counted task _ _ | .completed task _ _ => task.vertex < t.vertexCount
  | .asking | .passing _ _ _ | .recording _ | .gone => True

namespace Team

variable {r r' : Team V E M P} {t : Topology}

/-- A run on a graph of the given shape, with all that it has to do with in the graph. -/
structure Orderly (t : Topology) (r : Team V E M P) : Prop where
  shape : r.engine.store.topology = t
  valid : r.engine.store.Valid
  frozen : r.engine.store.frozen = true
  phase : r.engine.phase = .running
  locks : r.locks = t.vertexCount
  tasks : r.engine.scheduler.Fits t.vertexCount
  duties : ∀ w, (r.duty w).Within t

namespace Orderly

/-- A worker goes on to something in the graph, and neither the graph nor the phase changes. -/
theorem act (h : Orderly t r) {w : Nat} {e : Engine V E M P} {d : Duty V E M P}
    (hstore : e.store = r.engine.store) (hphase : e.phase = r.engine.phase)
    (htasks : e.scheduler.Fits t.vertexCount) (hd : d.Within t) : Orderly t (r.act w e d) where
  shape := (congrArg _ hstore).trans h.shape
  valid := (hstore ▸ h.valid : e.store.Valid)
  frozen := (congrArg _ hstore).trans h.frozen
  phase := hphase.trans h.phase
  locks := h.locks
  tasks := htasks
  duties u := by
    change (if u = w then d else r.duty u).Within t
    split
    · exact hd
    · exact h.duties u

/-- A task that is handed out is for a vertex, and so are its locks. -/
private theorem took (h : Orderly t r) {w : Nat} {q : Task P} {s : Scheduler P}
    (hnext : r.engine.scheduler.next w = (.task q, s)) :
    Orderly t (r.act w { r.engine with scheduler := s }
      (.locking q (r.engine.scopeOf q).lockSet)) := by
  obtain ⟨htasks, hlt⟩ := h.tasks.next hnext
  obtain rfl := h.shape
  have hq : q.vertex < r.engine.store.vertexCount := hlt q rfl
  exact h.act rfl rfl htasks ⟨hq, (h.valid.covers hq).locks _⟩

/-- A call changes data but not its extent, and adds requests for vertices. -/
private theorem called (h : Orderly t r) {w : Nat} {q : Task P} {th : Thread V E M P}
    (hw : (Duty.updating q th).Within t) :
    Orderly t (r.act w (r.engine.withShared (th.step r.engine.shared).2)
      (.updating q (th.step r.engine.shared).1)) := by
  obtain ⟨hq, hscope, hcentre, hreq⟩ := hw
  have hsize := Thread.size_step th r.engine.shared
  have hvalid : th.scope.topology.Valid := hscope ▸ h.shape ▸ h.valid.topology
  refine ⟨h.shape, h.valid.withCells hsize.1 hsize.2, h.frozen, h.phase, h.locks, h.tasks,
    fun u => ?_⟩
  change (if u = w then _ else r.duty u).Within t
  split
  · refine ⟨hq, (Thread.scope_step th _).symm ▸ hscope, (Thread.scope_step th _).symm ▸ hcentre, ?_⟩
    rw [← hscope] at hreq ⊢
    exact Thread.requests_step hvalid hreq
  · exact h.duties u

/-- What one step preserves. -/
theorem step (h : Orderly t r) (hstep : Step r r') : Orderly t r' := by
  have hduty {w : Nat} {d : Duty V E M P} (hd : r.duty w = d) : d.Within t := hd ▸ h.duties w
  -- No step changes the store but a call of an update, and that only changes data.
  cases hstep with
  | took _ hnext => exact h.took hnext
  | waited _ hnext | finished _ hnext => exact h.act rfl rfl (h.tasks.next hnext).1 trivial
  | locked hw =>
    obtain ⟨hq, hls⟩ := hduty hw
    exact h.act rfl rfl h.tasks ⟨hq, fun l hl => hls l (List.mem_cons_of_mem _ hl)⟩
  | entered hw =>
    exact h.act rfl rfl h.tasks ⟨(hduty hw).1, h.shape, rfl, by simp [Engine.threadOf]⟩
  | called hw => exact h.called (hduty hw)
  | released hw hreport =>
    obtain ⟨hq, -, -, hreq⟩ := hduty hw
    refine h.act rfl rfl h.tasks ⟨hq, fun q hq => ?_⟩
    split at hq
    · exact hreq q (Thread.requests_of_report hreport ▸ hq)
    · cases hq
  | pushed hw =>
    obtain ⟨hq, hqs⟩ := hduty hw
    exact h.act rfl rfl (h.tasks.push (hqs _ List.mem_cons_self))
      ⟨hq, fun q hq => hqs q (List.mem_cons_of_mem _ hq)⟩
  | counted hw => exact h.act rfl rfl h.tasks (hduty hw).1
  | completed hw =>
    have hq := hduty hw
    exact h.act rfl rfl h.tasks.complete hq
  | recorded | reported | succeeded | passedOver | passed | allPassed | returned | lost =>
    exact h.act rfl rfl h.tasks trivial
  | aborted => exact ⟨h.shape, h.valid, h.frozen, h.phase, h.locks, h.tasks.abort, h.duties⟩
  | measured metrics => exact ⟨h.shape, h.valid, h.frozen, h.phase, h.locks, h.tasks, h.duties⟩

/-- What a run preserves. -/
theorem run (h : Orderly t r) (hrun : Run r r') : Orderly t r' := by
  induction hrun with
  | refl => exact h
  | tail _ hstep ih => exact ih.step hstep

end Orderly

/-- Whatever any worker looks up by position in its next step, or a pass in one of its own, is
there. -/
structure InRange (r : Team V E M P) : Prop where
  tasks : ∀ t ∈ r.engine.scheduler.tasks, r.engine.store.Covers t.vertex
  locks : ∀ w task ls, r.duty w = .locking task ls →
    r.engine.store.Covers task.vertex ∧ ∀ l ∈ ls, l.vertex < r.locks
  scopes : ∀ w task th, r.duty w = .updating task th → r.engine.store.Covers task.vertex ∧
    th.scope.topology = r.engine.store.topology ∧ th.scope.centre = task.vertex
  requests : ∀ w task fault qs, r.duty w = .publishing task fault qs → ∀ q ∈ qs,
    r.engine.store.Covers q.vertex
  reports : ∀ w task fault count, r.duty w = .completed task fault count →
    r.engine.store.Covers task.vertex
  passes : r.engine.store.Passable

/-- In an orderly team every vertex in use is there. -/
theorem Orderly.inRange (h : Orderly t r) : r.InRange := by
  have hduty {w : Nat} {d : Duty V E M P} (hd : r.duty w = d) : d.Within t := hd ▸ h.duties w
  have hcount : r.engine.store.vertexCount = t.vertexCount := congrArg Topology.vertexCount h.shape
  have hcovers {v : VertexIndex} (hv : v < t.vertexCount) : r.engine.store.Covers v :=
    h.valid.covers (hcount ▸ hv)
  refine ⟨fun t ht => hcovers (h.tasks.of_mem ht), fun w task ls hw => ?_, fun w task th hw => ?_,
    fun w task fault qs hw q hq => hcovers ((hduty hw).2 q hq), fun w task fault count hw =>
      hcovers (hduty hw),
    h.valid.passable⟩
  · exact ⟨hcovers (hduty hw).1, h.locks ▸ (hduty hw).2⟩
  · exact ⟨hcovers (hduty hw).1, (hduty hw).2.1.trans h.shape.symm, (hduty hw).2.2.1⟩

end Team

end VertexPrograms
