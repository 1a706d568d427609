import VertexPrograms.Program.Components
import VertexPrograms.Proofs.Graph.Representation

/-!
# One update of the components program

An update finds the smallest label in the neighbourhood of its centre. If that is below the label of
the centre, it takes its place and all neighbours are asked for; otherwise nothing happens. The
update does not fail.
-/

namespace VertexPrograms

variable {E M P : Type}

/-- A neighbour of the centre is found under its identifier. -/
theorem Scope.findNeighbour_of_mem {s : Scope} (ht : s.topology.Valid) {i : VertexIndex}
    {id : VertexId} (hi : i ∈ s.topology.adjacentOf s.centre) (hid : s.topology.ids[i]? = some id) :
    s.findNeighbour id = .ok i := by
  have hfind : s.find id = .ok i := by
    rw [find, ht.require_eq hid]
    exact if_pos (.inr hi)
  rw [findNeighbour, hfind]
  exact if_neg (ht.adjacent_lt hi).1

namespace Components

/-- The label of a vertex. -/
def label (c : Cells UInt32 E) (v : VertexIndex) : UInt32 := (c.vertices[v]?).getD 0

/-- The smallest of a label and those of the given vertices. -/
def smallestOf (c : Cells UInt32 E) (x : UInt32) (vs : List VertexIndex) : UInt32 :=
  vs.foldl (fun x v => min x (label c v)) x

/-- The smallest label of a vertex and its neighbours. -/
def smallest (t : Topology) (c : Cells UInt32 E) (v : VertexIndex) : UInt32 :=
  smallestOf c (label c v) (t.adjacentOf v)

variable {c : Cells UInt32 E}

/-- The smallest label is at most the one it starts from. -/
theorem smallestOf_le (x : UInt32) (vs : List VertexIndex) : smallestOf c x vs ≤ x := by
  induction vs generalizing x with
  | nil => exact Std.le_refl x
  | cons v vs ih => exact Std.le_trans (ih (min x (label c v))) Std.min_le_left

theorem smallestOf_le_label (x : UInt32) {v : VertexIndex} {vs : List VertexIndex} (hv : v ∈ vs) :
    smallestOf c x vs ≤ label c v := by
  induction vs generalizing x with
  | nil => cases hv
  | cons w vs ih =>
    rcases List.mem_cons.mp hv with rfl | hv
    · exact Std.le_trans (smallestOf_le _ vs) Std.min_le_right
    · exact ih _ hv

/-- The smallest label is one of those it is taken from. -/
theorem smallestOf_eq (x : UInt32) (vs : List VertexIndex) :
    smallestOf c x vs = x ∨ ∃ v ∈ vs, smallestOf c x vs = label c v := by
  induction vs generalizing x with
  | nil => exact .inl rfl
  | cons w vs ih =>
    rcases ih (min x (label c w)) with h | ⟨v, hv, h⟩
    · rcases Std.min_eq_or (a := x) (b := label c w) with hmin | hmin
      · exact .inl (h.trans hmin)
      · exact .inr ⟨w, List.mem_cons_self, h.trans hmin⟩
    · exact .inr ⟨v, List.mem_cons_of_mem w hv, h⟩

/-- A vertex that exists has its label as data. -/
theorem getElem?_eq_label {t : Topology} (hc : c.vertices.size = t.vertexCount) {v : VertexIndex}
    (hv : v < t.vertexCount) : c.vertices[v]? = some (label c v) := by
  have hv : v < c.vertices.size := hc ▸ hv
  simp [label, hv]

/-- A label that is written is read back, and no other one changes. -/
theorem label_modifyVertex {v : VertexIndex} (hv : v < c.vertices.size) (x : UInt32)
    (u : VertexIndex) : label (c.modifyVertex v fun _ => x) u = if u = v then x else label c u := by
  rw [label, Cells.modifyVertex, Array.getElem?_modify]
  by_cases huv : u = v
  · simp [huv, hv]
  · rw [if_neg huv, if_neg (Ne.symm huv), label]

/-- Gathering labels of neighbours goes on with the smallest. -/
theorem run_gather {s : Scope} (ht : s.topology.Valid)
    (hc : c.vertices.size = s.topology.vertexCount) (self : P) (next : UInt32 → Update UInt32 E M P)
    (globals : Globals) (memory : M) (requests : Array (Task P)) {vs : List VertexIndex}
    (hvs : ∀ v ∈ vs, v ∈ s.topology.adjacentOf s.centre) (x : UInt32) :
    (gather next (s.topology.idsAt vs) x).run s self ⟨c, globals, memory, requests⟩ =
      (next (smallestOf c x vs)).run s self ⟨c, globals, memory, requests⟩ := by
  induction vs generalizing x with
  | nil => rfl
  | cons v vs ih =>
    have hv := hvs v List.mem_cons_self
    obtain ⟨-, hlt⟩ := ht.adjacent_lt hv
    obtain ⟨id, hid, hids⟩ := s.topology.idsAt_cons hlt vs
    have hread : c.readVertex s v = .ok (label c v) := by
      rw [Cells.readVertex, getElem?_eq_label hc hlt]
    have hperform : c.perform s (.readNeighbour id) = (.ok (label c v), c) := by
      rw [Cells.perform, s.findNeighbour_of_mem ht hv hid]
      exact congrArg (·, c) hread
    rw [hids, gather, Update.run, hperform]
    exact ih (fun w hw => hvs w (List.mem_cons_of_mem v hw)) (min x (label c v))

/-- What the update of a vertex does. -/
theorem run_update {s : Scope} (ht : s.topology.Valid)
    (hc : c.vertices.size = s.topology.vertexCount) (hv : s.centre < s.topology.vertexCount)
    (self : P) (globals : Globals) (memory : M) :
    ((program : Program UInt32 E M P).update s).run s self ⟨c, globals, memory, #[]⟩ =
      let x := smallest s.topology c s.centre
      if x < label c s.centre then
        (none, ⟨c.modifyVertex s.centre fun _ => x, globals, memory,
          ((s.topology.adjacentOf s.centre).map fun v => ⟨v, urgency x, self⟩).toArray⟩)
      else (none, ⟨c, globals, memory, #[]⟩) := by
  have hread : c.readVertex s s.centre = .ok (label c s.centre) := by
    rw [Cells.readVertex, getElem?_eq_label hc hv]
  have hperform : c.perform s .readCentre = (.ok (label c s.centre), c) := congrArg (·, c) hread
  rw [program, Update.run, hperform]
  refine (run_gather ht hc self _ globals memory #[] (fun _ h => h) (label c s.centre)).trans ?_
  change (settle (label c s.centre) (smallest s.topology c s.centre)).run s self _ = _
  by_cases hlt : smallest s.topology c s.centre < label c s.centre
  · simp only [settle, if_pos hlt]
    simp [Update.run, Cells.perform, Update.State.request, Update.tasksOf]
  · simp only [settle, if_neg hlt]
    rfl

/-- An update ends well, with the smallest label around it at its centre, and has asked for the
neighbours exactly if that label is new. -/
theorem exists_run_update {s : Scope} (ht : s.topology.Valid)
    (hc : c.vertices.size = s.topology.vertexCount) (hv : s.centre < s.topology.vertexCount)
    (self : P) (globals : Globals) (memory : M) :
    ∃ (cells : Cells UInt32 E) (requests : Array (Task P)),
      ((program : Program UInt32 E M P).update s).run s self ⟨c, globals, memory, #[]⟩ =
        (none, ⟨cells, globals, memory, requests⟩) ∧
      cells.vertices.size = c.vertices.size ∧
      (∀ u < s.topology.vertexCount,
        label cells u = if u = s.centre then smallest s.topology c s.centre else label c u) ∧
      (∀ r ∈ requests.toList, r.program = self) ∧
      ∀ u, u ∈ requests.toList.map (·.vertex) ↔
        smallest s.topology c s.centre < label c s.centre ∧ u ∈ s.topology.adjacentOf s.centre := by
  have hrun := run_update ht hc hv self globals memory
  have hle : smallest s.topology c s.centre ≤ label c s.centre := smallestOf_le _ _
  by_cases hlt : smallest s.topology c s.centre < label c s.centre
  · refine ⟨_, _, hrun.trans (if_pos hlt), by simp [Cells.modifyVertex], fun u _ => ?_, by simp, ?_⟩
    · exact label_modifyVertex (hc ▸ hv) _ u
    · intro u
      simp [hlt]
  · refine ⟨c, #[], hrun.trans (if_neg hlt), rfl, fun u _ => ?_, by simp, by simp [hlt]⟩
    by_cases huv : u = s.centre
    · rw [if_pos huv, huv]
      exact Std.le_antisymm (Std.not_lt.mp hlt) hle
    · rw [if_neg huv]

end Components

end VertexPrograms
