import VertexPrograms.Proofs.Engine.Bounds
import VertexPrograms.Proofs.Scope.Exactness

/-!
# Scopes confine updates

Whatever calls an update makes, refused ones included, it changes no data but that of its centre,
above vertex level that of the edges at the centre, and at full level that of the neighbours. The
tasks it asks for stay with it until it has ended and given up its locks: nothing is added to the
pending tasks but by a worker that is past that point.
-/

namespace VertexPrograms

variable {V E M P : Type}

namespace Scope

variable {s : Scope} {c : Cells V E} {k : Cell}

/-- The data that an update in the scope may change. -/
def MayWrite (s : Scope) : Cell → Prop
  | .vertex i => i = s.centre ∨ s.level = .full ∧ s.topology.Joins s.centre i
  | .edge e => s.level ≠ .vertex ∧
      ∃ i j : VertexIndex, s.topology.edges[e]? = some (i, j) ∧ (i = s.centre ∨ j = s.centre)

/-- A single access changes no other data. -/
theorem perform_confined (ht : s.topology.Valid) (hk : ¬s.MayWrite k) (c : Cells V E)
    (a : Access V E) : c.Agree k (c.perform s a).2 := by
  by_cases hwrite : a.isWrite = true
  · refine Cells.perform_frame fun hcell => hk ?_
    cases k with
    | vertex i =>
      refine (of_cell?_vertex hcell).imp_right fun ⟨hadjacent, hfull⟩ => ?_
      exact ⟨hfull hwrite, ((ht.mem_adjacent _ _).mp hadjacent).2⟩
    | edge e =>
      obtain ⟨i, j, he, hcentre, hlevel⟩ := of_cell?_edge ht hcell
      exact ⟨hlevel hwrite, i, j, he, hcentre⟩
  · rw [Cells.perform_read (by simpa using hwrite)]
    exact .refl c

/-- An access leaves the cells of a scope filled. -/
theorem Filled.perform (h : s.Filled c) (a : Access V E) : s.Filled (c.perform s a).2 := by
  obtain ⟨hvertices, hedges⟩ := Cells.size_perform c s a
  exact ⟨hvertices.trans h.vertices, hedges.trans h.edges⟩

end Scope

namespace Update

variable {s : Scope} {self : P} {st : State V E M P} {k : Cell}

/-- A request that is refused changes nothing, and one that is not changes no data. -/
theorem request_cells (st : State V E M P) (s : Scope) (self : P) (r : Request P) :
    (st.request s self r).2.cells = st.cells ∧
      ∀ e, (st.request s self r).1 = .error e → (st.request s self r).2 = st := by
  rw [State.request]
  cases tasksOf s self r with
  | error e => exact ⟨rfl, fun _ _ => rfl⟩
  | ok ts => exact ⟨rfl, fun _ he => by cases he⟩

/-- A request for a vertex is for the one that has the identifier, and refused if there is none. -/
theorem decided_tasksOf (ht : s.topology.Valid) (self : P) (id : VertexId) (program : Option P)
    (priority : Priority) : Decided (tasksOf s self (.vertex id program priority))
      (fun ts => ∃ i : VertexIndex, s.topology.ids[i]? = some id ∧
        [⟨i, priority, program.getD self⟩] = ts)
      fun e => s.topology.Unknown id ∧ e = .unknownVertex id := by
  have hbind : tasksOf s self (.vertex id program priority) =
      (s.topology.require id).bind fun i => .ok [⟨i, priority, program.getD self⟩] := by
    rw [tasksOf]
    cases s.topology.require id <;> rfl
  rw [hbind]
  refine ((ht.decided_require id).bind fun i _ => .ofOk _).congr (fun _ => .rfl) fun e => ?_
  simp

/-- An update changes no other data, whatever it does and however it ends, and every vertex and edge
keeps data. -/
theorem run_confined (ht : s.topology.Valid) (u : Update V E M P) (st : State V E M P)
    (hst : s.Filled st.cells) : s.Filled (u.run s self st).2.cells ∧ ∀ k, ¬s.MayWrite k →
    st.cells.Agree k (u.run s self st).2.cells := by
  -- along the tree: an access is confined, and the other calls leave the data as they are
  induction u generalizing st with
  | done | fail fault => exact ⟨hst, fun k _ => .refl st.cells⟩
  | access call next ih =>
    obtain ⟨hfilled, hagree⟩ :=
      ih (st.cells.perform s call).1 { st with cells := (st.cells.perform s call).2 }
      (hst.perform call)
    exact ⟨hfilled, fun k hk => (Scope.perform_confined ht hk st.cells call).trans (hagree k hk)⟩
  | «global» call next ih => exact ih _ { st with globals := (st.globals.perform call).2 } hst
  | exchange change next ih => exact ih _ { st with memory := change st.memory } hst
  | request r next ih =>
    have hcells := (request_cells st s self r).1
    have hafter := ih (st.request s self r).1 (st.request s self r).2 (hcells ▸ hst)
    rwa [hcells] at hafter
  | requested next ih => exact ih _ st hst

end Update

/-! # Release -/

namespace Team

variable {r r' : Team V E M P} {w : Nat}

/-- Between two states of a run no task is added to the pending ones, and none raised, but by a
worker that publishes what its update has asked for; and it begins to do so when the update has
ended, with nothing to publish if it failed. -/
structure HoldsBack (r r' : Team V E M P) : Prop where
  pending : ∀ (v : VertexIndex) (q : Pending P), r'.engine.scheduler.pending[v]? = some q →
    r.engine.scheduler.pending[v]? = some q ∨ ∃ w t fault task qs,
      r.duty w = .publishing t fault (task :: qs) ∧ task.vertex = v ∧
        r' = r.act w { r.engine with scheduler := (r.engine.scheduler.push task).2 }
        (.publishing t fault qs)
  publishing : ∀ w t fault qs, r'.duty w = .publishing t fault qs →
    r.duty w = .publishing t fault qs ∨ (∃ task, r.duty w = .publishing t fault (task :: qs)) ∨
      ∃ th report, r.duty w = .updating t th ∧ th.report? = some report ∧ fault = report.fault ∧
        qs = if fault.isNone then report.requests.toList else []

/-- A step that leaves what is pending as it is, or less of it, and after which its worker does not
publish. -/
private theorem HoldsBack.of_act {e : Engine V E M P} {d : Duty V E M P}
    (hpending : ∀ (v : VertexIndex) (q : Pending P), e.scheduler.pending[v]? = some q →
      r.engine.scheduler.pending[v]? = some q)
    (hduty : ∀ t fault qs, d ≠ .publishing t fault qs) : HoldsBack r (r.act w e d) where
  pending v q hq := .inl (hpending v q hq)
  publishing u t fault qs hu := by
    by_cases huw : u = w
    · exact absurd (by simpa [act, huw] using hu) (hduty t fault qs)
    · exact .inl (by simpa [act, huw] using hu)

/-- What is pending after a task has been handed out was pending before. -/
private theorem pending_of_next {s : Scheduler P} {answer : Handout P}
    (hnext : r.engine.scheduler.next w = (answer, s)) (v : VertexIndex) (q : Pending P)
    (hq : s.pending[v]? = some q) : r.engine.scheduler.pending[v]? = some q := by
  cases answer with
  | task t =>
    obtain ⟨-, _, agenda, -, rfl⟩ := Scheduler.next_of_task hnext
    have hq : (r.engine.scheduler.pending.erase t.vertex)[v]? = some q := hq
    rw [Scheduler.lookup_erase] at hq
    split at hq
    · cases hq
    · exact hq
  | finished | blocked =>
    obtain ⟨agenda, rfl⟩ := Scheduler.next_of_not_task hnext (by simp)
    exact hq

/-- A push changes what is pending for its vertex and for no other. -/
private theorem pending_push {s : Scheduler P} {t : Task P} {v : VertexIndex} (hv : t.vertex ≠ v) :
    (s.push t).2.pending[v]? = s.pending[v]? := by
  cases hnone : s.pending[t.vertex]? with
  | none => rw [Scheduler.push_of_none hnone, Scheduler.lookup_insert, if_neg hv]
  | some q =>
    obtain ⟨_, _, hpush, hlookup⟩ := Scheduler.push_of_some hnone
    rw [hpush, hlookup, if_neg hv]

/-- Every step holds back what updates have asked for until their release. -/
theorem Step.holdsBack (h : Step r r') : HoldsBack r r' := by
  cases h with
  | took hduty hnext | waited hduty hnext | finished hduty hnext =>
    exact .of_act (pending_of_next hnext) (by simp)
  | @pushed w t task fault qs hduty =>
    constructor
    · intro v q hq
      by_cases hv : task.vertex = v
      · exact .inr ⟨w, t, fault, task, qs, hduty, hv, rfl⟩
      · exact .inl ((pending_push hv).symm.trans hq)
    · intro u t' fault' qs' hu
      by_cases huw : u = w
      · obtain ⟨rfl, rfl, rfl⟩ : t = t' ∧ fault = fault' ∧ qs = qs' := by simpa [act, huw] using hu
        exact .inr (.inl ⟨task, huw ▸ hduty⟩)
      · exact .inl (by simpa [act, huw] using hu)
  | @released w t th report hduty hreport =>
    refine ⟨fun v q hq => .inl hq, fun u t' fault qs hu => ?_⟩
    by_cases huw : u = w
    · obtain ⟨rfl, rfl, rfl⟩ : t = t' ∧ report.fault = fault ∧
          (if report.fault.isNone then report.requests.toList else []) = qs := by
        simpa [act, huw] using hu
      exact .inr (.inr ⟨th, report, huw ▸ hduty, hreport, rfl, rfl⟩)
    · exact .inl (by simpa [act, huw] using hu)
  | aborted =>
    refine ⟨fun v q hq => ?_, fun u t fault qs hu => .inl hu⟩
    have hempty : (∅ : Std.ExtTreeMap VertexIndex (Pending P) compare)[v]? = some q := hq
    simp at hempty
  | measured => exact ⟨fun v q hq => .inl hq, fun u t fault qs hu => .inl hu⟩
  | _ => exact .of_act (fun _ _ hq => hq) (by simp)

end Team

/-! # Scopes -/

/-- What is said of the scope of an update: its accesses are exact on whatever data there are, as
are its questions for degrees and its requests, and its updates are confined. -/
structure Scope.Sound (V E M P : Type) (s : Scope) : Prop where
  access : ∀ (c : Cells V E) (a : Access V E), s.Filled c → s.Exact c a
  outDegree : ∀ id, Decided (s.outDegree id)
    (fun n => ∃ i, s.Near id i ∧ s.topology.edges.toList.countP (·.1 == i) = n) (s.Beyond id)
  inDegree : ∀ id, Decided (s.inDegree id)
    (fun n => ∃ i, s.Near id i ∧ s.topology.edges.toList.countP (·.2 == i) = n) (s.Beyond id)
  tasksOf : ∀ (self : P) (id : VertexId) (program : Option P) (priority : Priority),
    Decided (Update.tasksOf s self (.vertex id program priority))
      (fun ts => ∃ i : VertexIndex, s.topology.ids[i]? = some id ∧
        [⟨i, priority, program.getD self⟩] = ts)
      fun e => s.topology.Unknown id ∧ e = .unknownVertex id
  request : ∀ (st : Update.State V E M P) (self : P) (r : Request P) (e : Error),
    (st.request s self r).1 = .error e → (st.request s self r).2 = st
  run : ∀ (u : Update V E M P) (self : P) (st : Update.State V E M P), s.Filled st.cells →
    s.Filled (u.run s self st).2.cells ∧ ∀ k, ¬s.MayWrite k →
    st.cells.Agree k (u.run s self st).2.cells

/-- In every graph that the operations of the store build, at every centre and level, the accessors
of a scope succeed just where the identifiers, the edges and the level permit it, and do then what
they are for; elsewhere they are refused with the error of the first check that fails, and change
nothing. So whatever an update does, no data changes that it may not write; and in a run of any
number of workers no task that it has asked for is added to the pending ones before it has ended and
released its scope. -/
theorem Scope.sound {g : Store V E} (hg : g.Built) {v : VertexIndex} (hv : v < g.vertexCount)
    (l : Consistency) : Scope.Sound V E M P ⟨g.topology, v, l⟩ ∧
    Scope.Filled ⟨g.topology, v, l⟩ g.cells ∧
      ∀ r r' : Team V E M P, Team.Step r r' → Team.HoldsBack r r' := by
  have ht := hg.valid.topology
  refine ⟨?_, ⟨hg.valid.vertices_size, hg.valid.edges_size⟩, fun _ _ => Team.Step.holdsBack⟩
  exact {
    access := fun c a hc => exact ht hv hc a
    outDegree := decided_outDegree ht
    inDegree := decided_inDegree ht
    tasksOf := Update.decided_tasksOf ht
    request := fun st self r => (Update.request_cells st _ self r).2
    run := fun u _ st hst => Update.run_confined ht u st hst }

/-- At the end of a row an update at edge level may not write its neighbour, and cannot change it in
any way; but it may write the edge between them. -/
theorem Scope.sound_row :
    let g : Store Nat Nat := .row 10 20 30 1 2
    let s : Scope := ⟨g.topology, 0, .edge⟩
    g.cells.perform s (.writeNeighbour 1 (· + 1)) =
        (.error (.scopeViolation 0 "writing neighbour 1 needs full consistency, scope is edge"),
          g.cells) ∧
      (∃ x c', g.cells.perform s (.writeEdge 0 1 (· + 1)) = (.ok x, c')) ∧
      ∀ u : Update Nat Nat Unit Unit, (u.run s () ⟨g.cells, {}, (), #[]⟩).2.cells.vertices[1]? =
        some 20 := by
  intro g s
  obtain ⟨hsound, hfilled, -⟩ :=
    Scope.sound (M := Unit) (P := Unit) (Store.row_built 10 20 30 1 2) (v := 0) (by decide) .edge
  have hjoins : s.topology.Joins 0 1 := ⟨0, .inl rfl⟩
  refine ⟨?_, ?_, fun u => ?_⟩
  · have hexact := hsound.access g.cells (.writeNeighbour 1 (· + 1)) hfilled
    refine (hexact.error _ _).mpr ⟨.inr ⟨⟨1, rfl, by decide, hjoins⟩, by decide, ?_⟩, rfl⟩
    rfl
  · have hexact := hsound.access g.cells (.writeEdge 0 1 (· + 1)) hfilled
    exact hexact.success.mpr ⟨⟨0, 0, 1, rfl, rfl, .inl rfl, rfl⟩, by decide⟩
  · obtain ⟨-, hconfined⟩ := hsound.run u () ⟨g.cells, {}, (), #[]⟩ hfilled
    refine (hconfined (.vertex 1) ?_).symm
    rintro (h | ⟨h, -⟩)
    · exact absurd h (by decide)
    · cases h

end VertexPrograms
