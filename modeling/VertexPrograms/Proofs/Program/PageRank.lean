import VertexPrograms.Program.PageRank
import VertexPrograms.Proofs.Scope.Exactness

/-!
# One update of the ranking

An update gives its centre the rank that the formula has for it, and asks for the vertices to which
edges lead from it exactly if the rank has moved by more than the tolerance. It does not fail.
Doubles are left as they are: nothing is used of their arithmetic.
-/

namespace VertexPrograms

variable {E M P : Type}

/-- An edge leads from the one vertex to the other. -/
def Topology.Leads (t : Topology) (u v : VertexIndex) : Prop := (u, v) ∈ t.edges.toList

/-- The vertices from which edges lead to a vertex, in the order of the edges. -/
def Topology.inNeighbours (t : Topology) (v : VertexIndex) : List VertexIndex :=
  (t.edges.toList.filter (·.2 == v)).map (·.1)

/-- The vertices to which edges lead from a vertex, in the order of the edges. -/
def Topology.outNeighbours (t : Topology) (v : VertexIndex) : List VertexIndex :=
  (t.edges.toList.filter (·.1 == v)).map (·.2)

namespace Topology

variable {t : Topology} {u v : VertexIndex}

theorem mem_inNeighbours : u ∈ t.inNeighbours v ↔ t.Leads u v := by simp [inNeighbours, Leads]

theorem mem_outNeighbours : u ∈ t.outNeighbours v ↔ t.Leads v u := by simp [outNeighbours, Leads]

/-- A vertex that leads to another one is joined with it. -/
theorem Leads.joins (h : t.Leads u v) : t.Joins u v := by
  obtain ⟨e, he⟩ := List.mem_iff_getElem?.mp h
  exact ⟨e, .inl (by simpa using he)⟩

end Topology

namespace PageRank

/-- The rank of a vertex. -/
def rankOf (c : Cells Float E) (v : VertexIndex) : Float := (c.vertices[v]?).getD 0.0

/-- What a vertex passes on along each of its edges: its rank, divided evenly among them. -/
def share (t : Topology) (c : Cells Float E) (u : VertexIndex) : Float :=
  rankOf c u / Float.ofNat (max (t.edges.toList.countP (·.1 == u)) 1)

/-- The rank that a vertex should have by what its in-neighbours pass on. -/
def formula (r : PageRank) (t : Topology) (c : Cells Float E) (v : VertexIndex) : Float :=
  (1.0 - r.damping) / Float.ofNat t.vertexCount +
    r.damping * (t.inNeighbours v).foldl (fun sum u => sum + share t c u) 0.0

variable {c : Cells Float E} {r : PageRank} {s : Scope}

/-- A vertex that exists has its rank as data. -/
theorem getElem?_eq_rankOf {t : Topology} (hc : c.vertices.size = t.vertexCount) {v : VertexIndex}
    (hv : v < t.vertexCount) : c.vertices[v]? = some (rankOf c v) := by
  have hv : v < c.vertices.size := hc ▸ hv
  simp [rankOf, hv]

/-- A rank that is written is read back, and no other one changes. -/
theorem rankOf_modifyVertex {v : VertexIndex} (hv : v < c.vertices.size) (x : Float)
    (u : VertexIndex) : rankOf (c.modifyVertex v fun _ => x) u = if u = v then x
      else rankOf c u := by
  rw [rankOf, Cells.modifyVertex, Array.getElem?_modify]
  by_cases huv : u = v
  · simp [huv, hv]
  · rw [if_neg huv, if_neg (Ne.symm huv), rankOf]

/-- The rank of an in-neighbour is read by one call or another, for it can be the centre itself. -/
private theorem run_read (ht : s.topology.Valid) (hc : c.vertices.size = s.topology.vertexCount)
    (self : P) (next : Float → Update Float E M P) (globals : Globals) (memory : M)
    (requests : Array (Task P)) {u : VertexIndex} (hu : s.topology.Leads u s.centre) {id : VertexId}
    (hid : s.topology.ids[u]? = some id) :
    (if id = s.vertex then Update.access .readCentre (.orFail next)
      else .access (.readNeighbour id) (.orFail next)).run s self ⟨c, globals, memory, requests⟩ =
      (next (rankOf c u)).run s self ⟨c, globals, memory, requests⟩ := by
  obtain ⟨hlt, hcentre⟩ := ht.joins_lt hu.joins
  have hread : c.readVertex s u = .ok (rankOf c u) := by
    rw [Cells.readVertex, getElem?_eq_rankOf hc hlt]
  by_cases huc : u = s.centre
  · have hperform : c.perform s .readCentre = (.ok (rankOf c u), c) := by
      rw [Cells.perform, ← huc]
      exact congrArg (·, c) hread
    rw [if_pos ((Scope.eq_vertex_iff ht hid hcentre).mpr huc), Update.run, hperform]
    rfl
  · have hfind : s.findNeighbour id = .ok u :=
      ((Scope.decided_findNeighbour ht id).ok u).mpr ⟨hid, huc, hu.joins.symm⟩
    have hperform : c.perform s (.readNeighbour id) = (.ok (rankOf c u), c) := by
      rw [Cells.perform, hfind]
      exact congrArg (·, c) hread
    rw [if_neg (mt (Scope.eq_vertex_iff ht hid hcentre).mp huc), Update.run, hperform]
    rfl

/-- Gathering goes on with the sum of what the in-neighbours pass on. -/
theorem run_gather (ht : s.topology.Valid) (hc : c.vertices.size = s.topology.vertexCount)
    (self : P) (next : Float → Update Float E M P) (globals : Globals) (memory : M)
    (requests : Array (Task P)) {us : List VertexIndex}
    (hus : ∀ u ∈ us, s.topology.Leads u s.centre) (sum : Float) :
    (gather s next (s.topology.idsAt us) sum).run s self ⟨c, globals, memory, requests⟩ =
      (next (us.foldl (fun sum u => sum + share s.topology c u) sum)).run s self ⟨c, globals,
        memory, requests⟩ := by
  induction us generalizing sum with
  | nil => rfl
  | cons u us ih =>
    have hu := hus u List.mem_cons_self
    obtain ⟨id, hid, hids⟩ := s.topology.idsAt_cons (ht.joins_lt hu.joins).1 us
    have hdegree : s.outDegree id = .ok (s.topology.edges.toList.countP (·.1 == u)) :=
      ((Scope.decided_outDegree ht id).ok _).mpr ⟨u, ⟨hid, .inr hu.joins.symm⟩, rfl⟩
    rw [hids, gather, hdegree]
    dsimp only
    rw [run_read ht hc self _ globals memory requests hu hid]
    exact ih (fun w hw => hus w (List.mem_cons_of_mem u hw)) _

/-- Spreading asks for each of the vertices. -/
theorem run_spread (ht : s.topology.Valid) (self : P) (priority : Priority) {vs : List VertexIndex}
    (hvs : ∀ v ∈ vs, v < s.topology.vertexCount) (st : Update.State Float E M P) :
    (spread priority (s.topology.idsAt vs)).run s self st =
      (none, { st with
        requests := st.requests ++ vs.map fun v => (⟨v, priority, self⟩ : Task P) }) := by
  induction vs generalizing st with
  | nil => simp [Topology.idsAt, spread, Update.run]
  | cons v vs ih =>
    obtain ⟨id, hid, hids⟩ := s.topology.idsAt_cons (hvs v List.mem_cons_self) vs
    have hrest := ih (fun w hw => hvs w (List.mem_cons_of_mem v hw))
    rw [hids, spread, Update.run, Update.State.request, Update.tasksOf, ht.require_eq hid]
    refine (hrest _).trans ?_
    simp

/-- The vertices an update asks for. -/
def asked (r : PageRank) (t : Topology) (c : Cells Float E) (v : VertexIndex) : List VertexIndex :=
  if (r.formula t c v - rankOf c v).abs > r.tolerance then t.outNeighbours v else []

/-- What the update of a vertex does. -/
theorem run_update (ht : s.topology.Valid) (hc : c.vertices.size = s.topology.vertexCount)
    (hv : s.centre < s.topology.vertexCount) (self : P) (globals : Globals) (memory : M) :
    ((r.program : Program Float E M P).update s).run s self ⟨c, globals, memory, #[]⟩ =
      let new := r.formula s.topology c s.centre
      (none, ⟨c.modifyVertex s.centre fun _ => new, globals, memory,
        ((r.asked s.topology c s.centre).map fun v =>
          ⟨v, .ofFloat (new - rankOf c s.centre).abs, self⟩).toArray⟩) := by
  have hread : c.readVertex s s.centre = .ok (rankOf c s.centre) := by
    rw [Cells.readVertex, getElem?_eq_rankOf hc hv]
  have hsources : s.sources = s.topology.idsAt (s.topology.inNeighbours s.centre) := by
    rw [Scope.sources, ht.sourcesOf_eq, Topology.idsAt_eq]
    rfl
  have htargets : s.targets = s.topology.idsAt (s.topology.outNeighbours s.centre) := by
    rw [Scope.targets, ht.targetsOf_eq, Topology.idsAt_eq]
    rfl
  have hout (v : VertexIndex) (hv : v ∈ s.topology.outNeighbours s.centre) :
      v < s.topology.vertexCount :=
    (ht.joins_lt (Topology.mem_outNeighbours.mp hv).joins).2
  rw [program]
  dsimp only
  rw [hsources]
  refine (run_gather ht hc self _ globals memory #[] (fun _ => Topology.mem_inNeighbours.mp)
    0.0).trans ?_
  change (r.settle s (r.formula s.topology c s.centre)).run s self _ = _
  have hperform : c.perform s (.writeCentre fun _ => r.formula s.topology c s.centre) =
      (.ok (rankOf c s.centre), c.modifyVertex s.centre fun _ => r.formula s.topology c s.centre) :=
    congrArg (·, _) hread
  rw [settle, Update.run, hperform]
  dsimp only [Update.orFail]
  by_cases hmove : (r.formula s.topology c s.centre - rankOf c s.centre).abs > r.tolerance
  · rw [if_pos hmove, asked, if_pos hmove, htargets, run_spread ht self _ hout]
    simp
  · rw [if_neg hmove, asked, if_neg hmove]
    rfl

/-- An update ends well, with the rank of the formula at its centre, and has asked for the vertices
to which edges lead from it exactly if the rank has moved by more than the tolerance. -/
theorem exists_run_update (r : PageRank) (ht : s.topology.Valid)
    (hc : c.vertices.size = s.topology.vertexCount) (hv : s.centre < s.topology.vertexCount)
    (self : P) (globals : Globals) (memory : M) :
    ∃ (cells : Cells Float E) (requests : Array (Task P)),
      ((r.program : Program Float E M P).update s).run s self ⟨c, globals, memory, #[]⟩ =
        (none, ⟨cells, globals, memory, requests⟩) ∧
      cells.vertices.size = c.vertices.size ∧
      (∀ u, rankOf cells u = if u = s.centre then r.formula s.topology c u else rankOf c u) ∧
      (∀ q ∈ requests.toList, q.vertex < s.topology.vertexCount ∧ q.program = self) ∧
      ∀ u, u ∈ requests.toList.map (·.vertex) ↔
        (r.formula s.topology c s.centre - rankOf c s.centre).abs > r.tolerance ∧
        s.topology.Leads s.centre u := by
  have hasked (u : VertexIndex) : u ∈ r.asked s.topology c s.centre ↔
      (r.formula s.topology c s.centre - rankOf c s.centre).abs > r.tolerance ∧
      s.topology.Leads s.centre u := by
    rw [asked]
    split
    · rename_i hmove
      rw [Topology.mem_outNeighbours, and_iff_right hmove]
    · rename_i hmove
      simp [hmove]
  refine ⟨_, _, run_update ht hc hv self globals memory, by simp [Cells.modifyVertex], fun u => ?_,
    fun q hq => ?_, fun u => ?_⟩
  · refine (rankOf_modifyVertex (hc ▸ hv) _ u).trans ?_
    by_cases hu : u = s.centre
    · rw [if_pos hu, if_pos hu, hu]
    · rw [if_neg hu, if_neg hu]
  · obtain ⟨u, hu, rfl⟩ := List.mem_map.mp hq
    exact ⟨(ht.joins_lt ((hasked u).mp hu).2.joins).2, rfl⟩
  · rw [← hasked]
    simp

end PageRank

end VertexPrograms
