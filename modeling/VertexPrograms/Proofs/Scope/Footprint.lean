import Mathlib.Tactic.ByContra
import VertexPrograms.Proofs.Scope.LockSets
import VertexPrograms.Scope.Access

/-!
# Which cell an access touches

An access that its scope permits reads one cell, and a write replaces the content of that cell as a
function of that content. So two accesses commute unless they meet in a cell that one of them
writes, and the locks of two scopes that may run at the same time keep their accesses from meeting
in that way.
-/

namespace VertexPrograms

variable {V E : Type}

/-- A place for data. -/
inductive Cell where
  | vertex (i : VertexIndex)
  | edge (e : EdgeIndex)
  deriving DecidableEq, Repr

/-- Whether an access replaces what it finds. -/
def Access.isWrite : Access V E → Bool
  | .writeCentre _ | .writeNeighbour _ _ | .writeEdge _ _ _ => true
  | .readCentre | .readNeighbour _ | .readEdge _ _ => false

/-- The cell an access touches, unless it is out of scope. -/
def Scope.cell? (s : Scope) : Access V E → Option Cell
  | .readCentre | .writeCentre _ => some (.vertex s.centre)
  | .readNeighbour id => (s.findNeighbour id).toOption.map .vertex
  | .writeNeighbour id _ => (s.findWritableNeighbour id).toOption.map .vertex
  | .readEdge source target => (s.findEdge source target).toOption.map .edge
  | .writeEdge source target _ => (s.findWritableEdge source target).toOption.map .edge

namespace Cells

variable {c d : Cells V E} {s s' : Scope} {k : Cell}

/-- Two states of the data have the same in a cell. -/
def Agree (k : Cell) (c d : Cells V E) : Prop :=
  match k with
  | .vertex i => c.vertices[i]? = d.vertices[i]?
  | .edge e => c.edges[e]? = d.edges[e]?

theorem Agree.refl (c : Cells V E) : Agree k c c := by
  cases k <;> rfl

theorem Agree.symm (h : Agree k c d) : Agree k d c := by
  cases k <;> exact Eq.symm h

theorem Agree.trans {b : Cells V E} (h : Agree k b c) (h' : Agree k c d) : Agree k b d := by
  cases k <;> exact Eq.trans h h'

/-- Data that agree in every cell are the same. -/
theorem eq_of_agree (h : ∀ k, Agree k c d) : c = d := by
  obtain ⟨vertices, edges⟩ := c
  obtain ⟨vertices', edges'⟩ := d
  have hv : vertices = vertices' := Array.ext_getElem? fun i => h (.vertex i)
  have he : edges = edges' := Array.ext_getElem? fun e => h (.edge e)
  rw [hv, he]

/-- To write a vertex changes no other cell. -/
theorem agree_modifyVertex {i : VertexIndex} (hk : Cell.vertex i ≠ k) (f : V → V) :
    Agree k c (c.modifyVertex i f) := by
  cases k with
  | vertex j =>
    have hij : i ≠ j := fun h => hk (congrArg Cell.vertex h)
    change c.vertices[j]? = (c.vertices.modify i f)[j]?
    rw [Array.getElem?_modify, if_neg hij]
  | edge e => exact (rfl : c.edges[e]? = c.edges[e]?)

theorem agree_modifyEdge {e : EdgeIndex} (hk : Cell.edge e ≠ k) (f : E → E) :
    Agree k c (c.modifyEdge e f) := by
  cases k with
  | vertex j => exact (rfl : c.vertices[j]? = c.vertices[j]?)
  | edge e' =>
    have he : e ≠ e' := fun h => hk (congrArg Cell.edge h)
    change c.edges[e']? = (c.edges.modify e f)[e']?
    rw [Array.getElem?_modify, if_neg he]

/-- A vertex written alike leaves agreement as it was. -/
theorem Agree.modifyVertex (h : Agree k c d) (i : VertexIndex) (f : V → V) :
    Agree k (c.modifyVertex i f) (d.modifyVertex i f) := by
  cases k with
  | vertex j =>
    change (c.vertices.modify i f)[j]? = (d.vertices.modify i f)[j]?
    rw [Array.getElem?_modify, Array.getElem?_modify, show c.vertices[j]? = d.vertices[j]? from h]
  | edge e => exact h

theorem Agree.modifyEdge (h : Agree k c d) (e : EdgeIndex) (f : E → E) :
    Agree k (c.modifyEdge e f) (d.modifyEdge e f) := by
  cases k with
  | vertex j => exact h
  | edge e' =>
    change (c.edges.modify e f)[e']? = (d.edges.modify e f)[e']?
    rw [Array.getElem?_modify, Array.getElem?_modify, show c.edges[e']? = d.edges[e']? from h]

/-- Cells that agree on a vertex give the same data for it. -/
theorem Agree.readVertex {i : VertexIndex} (h : Agree (.vertex i) c d) (s : Scope) :
    c.readVertex s i = d.readVertex s i := by
  rw [Cells.readVertex, Cells.readVertex, show c.vertices[i]? = d.vertices[i]? from h]

theorem Agree.readEdge {e : EdgeIndex} (h : Agree (.edge e) c d) (source target : VertexId) :
    c.readEdge source target e = d.readEdge source target e := by
  rw [Cells.readEdge, Cells.readEdge, show c.edges[e]? = d.edges[e]? from h]

/-- A read changes nothing. -/
theorem perform_read {a : Access V E} (ha : a.isWrite = false) : (c.perform s a).2 = c := by
  cases a <;> simp only [Access.isWrite, Bool.true_eq_false] at ha <;> rw [perform] <;>
    split <;> rfl

/-- An access changes no cell but the one it touches. -/
theorem perform_frame {a : Access V E} (hk : s.cell? a ≠ some k) : Agree k c (c.perform s a).2 := by
  cases a with
  | readCentre => exact .refl c
  | writeCentre f => exact agree_modifyVertex (fun h => hk (congrArg some h)) f
  | readNeighbour id | readEdge source target =>
    rw [perform_read rfl]
    exact .refl c
  | writeNeighbour id f =>
    rw [perform]
    cases hi : s.findWritableNeighbour id with
    | error e => exact .refl c
    | ok i =>
      exact agree_modifyVertex (fun h => hk (by simp [Scope.cell?, hi, Except.toOption, h])) f
  | writeEdge source target f =>
    rw [perform]
    cases he : s.findWritableEdge source target with
    | error e => exact .refl c
    | ok e => exact agree_modifyEdge (fun h => hk (by simp [Scope.cell?, he, Except.toOption, h])) f

/-- The answer depends on the cell that is touched and on no other. -/
theorem perform_answer {a : Access V E} (h : ∀ k, s.cell? a = some k → Agree k c d) :
    (c.perform s a).1 = (d.perform s a).1 := by
  cases a with
  | readCentre | writeCentre f => exact (h _ rfl).readVertex s
  | readNeighbour id =>
    rw [perform, perform]
    cases hi : s.findNeighbour id with
    | error e => rfl
    | ok i => exact (h (.vertex i) (by simp [Scope.cell?, hi, Except.toOption])).readVertex s
  | writeNeighbour id f =>
    rw [perform, perform]
    cases hi : s.findWritableNeighbour id with
    | error e => rfl
    | ok i => exact (h (.vertex i) (by simp [Scope.cell?, hi, Except.toOption])).readVertex s
  | readEdge source target =>
    rw [perform, perform]
    cases he : s.findEdge source target with
    | error e => rfl
    | ok e =>
      exact (h (.edge e) (by simp [Scope.cell?, he, Except.toOption])).readEdge source target
  | writeEdge source target f =>
    rw [perform, perform]
    cases he : s.findWritableEdge source target with
    | error e => rfl
    | ok e =>
      exact (h (.edge e) (by simp [Scope.cell?, he, Except.toOption])).readEdge source target

/-- What an access leaves in a cell depends on what was there. -/
theorem Agree.perform (h : Agree k c d) (s : Scope) (a : Access V E) :
    Agree k (c.perform s a).2 (d.perform s a).2 := by
  cases a with
  | readCentre => exact h
  | writeCentre f => exact h.modifyVertex s.centre f
  | readNeighbour id | readEdge source target => rwa [perform_read rfl, perform_read rfl]
  | writeNeighbour id f =>
    rw [Cells.perform, Cells.perform]
    cases s.findWritableNeighbour id with
    | error e => exact h
    | ok i => exact h.modifyVertex i f
  | writeEdge source target f =>
    rw [Cells.perform, Cells.perform]
    cases s.findWritableEdge source target with
    | error e => exact h
    | ok e => exact h.modifyEdge e f

end Cells

/-! # Accesses that do not meet -/

/-- Two accesses meet if they touch the same cell and one of them writes. -/
def Access.Meet (s : Scope) (a : Access V E) (s' : Scope) (b : Access V E) : Prop :=
  ∃ k, s.cell? a = some k ∧ s'.cell? b = some k ∧ (a.isWrite = true ∨ b.isWrite = true)

/-- In either order two accesses give the same answers and leave the same data. -/
structure Access.Commute (c : Cells V E) (s : Scope) (a : Access V E) (s' : Scope)
    (b : Access V E) : Prop where
  first : (c.perform s a).1 = ((c.perform s' b).2.perform s a).1
  second : ((c.perform s a).2.perform s' b).1 = (c.perform s' b).1
  data : ((c.perform s a).2.perform s' b).2 = ((c.perform s' b).2.perform s a).2

namespace Access

variable {s s' : Scope} {a b : Access V E}

theorem Meet.symm (h : Meet s a s' b) : Meet s' b s a := by
  obtain ⟨k, ha, hb, hw⟩ := h
  exact ⟨k, hb, ha, hw.symm⟩

/-- An access leaves the cell alone that an access touches which it does not meet. -/
private theorem agree_of_not_meet (h : ¬Meet s a s' b) (c : Cells V E) {k : Cell}
    (hk : s.cell? a = some k) : c.Agree k (c.perform s' b).2 := by
  by_cases hb : s'.cell? b = some k
  · have hread : b.isWrite = false := by
      by_contra hw
      exact h ⟨k, hk, hb, .inr (by simpa using hw)⟩
    rw [Cells.perform_read hread]
    exact .refl c
  · exact Cells.perform_frame hb

/-- Accesses that do not meet commute. -/
theorem commute_of_not_meet (h : ¬Meet s a s' b) (c : Cells V E) : Commute c s a s' b where
  first := Cells.perform_answer fun _ hk => agree_of_not_meet h c hk
  second := (Cells.perform_answer fun _ hk => agree_of_not_meet (fun h' => h h'.symm) c hk).symm
  data := by
    refine Cells.eq_of_agree fun k => ?_
    by_cases hk : s.cell? a = some k
    · -- `b` leaves the cell alone, so `a` finds the same in it before and after
      have hlate := agree_of_not_meet h (c.perform s a).2 hk
      exact hlate.symm.trans ((agree_of_not_meet h c hk).perform s a)
    · -- `a` leaves the cell alone, so `b` finds the same in it before and after
      have hearly : c.Agree k (c.perform s a).2 := Cells.perform_frame hk
      exact (hearly.symm.perform s' b).trans (Cells.perform_frame hk)

end Access

/-! # Locks -/

namespace Scope

variable {t : Topology} {s s' : Scope} {a b : Access V E}

/-- The locks of two scopes can be held at the same time. -/
def Apart (s s' : Scope) : Prop := ∀ l ∈ s.lockSet, ∀ l' ∈ s'.lockSet, l.conflicts l' = false

theorem Apart.symm (h : s.Apart s') : s'.Apart s := by
  intro l hl l' hl'
  have := h l' hl' l hl
  simp only [Lock.conflicts, LockMode.conflicts, Bool.and_eq_false_iff,
    Bool.or_eq_false_iff] at this ⊢
  grind

/-- No vertex is in the lock sets of both scopes if one of them writes there. -/
theorem Apart.not_mem (h : s.Apart s') {v : VertexIndex} {m : LockMode}
    (hw : ⟨v, .write⟩ ∈ s.lockSet) : ⟨v, m⟩ ∉ s'.lockSet := by
  intro hm
  have := h _ hw _ hm
  simp [Lock.conflicts, LockMode.conflicts] at this

/-- A neighbour that is found is a neighbour. -/
private theorem findNeighbour_eq_ok {id : VertexId} {i : VertexIndex}
    (h : s.findNeighbour id = .ok i) : i ∈ s.topology.adjacentOf s.centre := by
  rw [findNeighbour, find] at h
  cases hid : s.topology.require id with
  | error e => simp [hid] at h
  | ok j =>
    simp only [hid] at h
    by_cases hj : j = s.centre ∨ j ∈ s.topology.adjacentOf s.centre
    · simp only [if_pos hj] at h
      split at h
      · cases h
      · rename_i hne
        exact Except.ok.inj h ▸ hj.resolve_left hne
    · simp [if_neg hj] at h

/-- An edge that is found is at the centre. -/
private theorem findEdge_eq_ok (ht : s.topology.Valid) {source target : VertexId} {e : EdgeIndex}
    (h : s.findEdge source target = .ok e) :
    ∃ i j, s.topology.edges[e]? = some (i, j) ∧ (i = s.centre ∨ j = s.centre) := by
  rw [findEdge] at h
  cases hs : s.topology.require source with
  | error err => simp [hs] at h
  | ok i =>
    cases htarget : s.topology.require target with
    | error err => simp [hs, htarget] at h
    | ok j =>
      simp only [hs, htarget] at h
      by_cases hij : i ≠ s.centre ∧ j ≠ s.centre
      · simp [if_pos hij] at h
      · rw [if_neg hij] at h
        cases he : s.topology.edgeBetween? i j with
        | none => simp [he] at h
        | some e' =>
          obtain rfl : e' = e := by simpa [he] using h
          exact ⟨i, j, (ht.edgeIndex (i, j) e').mp he, by grind⟩

/-- A vertex that an access touches is the centre or a neighbour, which at full level alone is
written. -/
theorem of_cell?_vertex {i : VertexIndex} (h : s.cell? a = some (.vertex i)) :
    i = s.centre ∨ i ∈ s.topology.adjacentOf s.centre ∧ (a.isWrite = true → s.level = .full) := by
  cases a with
  | readCentre | writeCentre f => exact .inl (by simpa [cell?, eq_comm] using h)
  | readNeighbour id =>
    cases hi : s.findNeighbour id with
    | error e => simp [cell?, hi, Except.toOption] at h
    | ok j =>
      obtain rfl : j = i := by simpa [cell?, hi, Except.toOption] using h
      exact .inr ⟨findNeighbour_eq_ok hi, nofun⟩
  | writeNeighbour id f =>
    cases hi : s.findWritableNeighbour id with
    | error e => simp [cell?, hi, Except.toOption] at h
    | ok j =>
      obtain rfl : j = i := by simpa [cell?, hi, Except.toOption] using h
      rw [findWritableNeighbour] at hi
      cases hn : s.findNeighbour id with
      | error e => simp [hn] at hi
      | ok k =>
        simp only [hn] at hi
        split at hi
        · rename_i hfull
          exact .inr ⟨Except.ok.inj hi ▸ findNeighbour_eq_ok hn, fun _ => hfull⟩
        · cases hi
  | readEdge source target =>
    cases he : s.findEdge source target <;> simp [cell?, he, Except.toOption] at h
  | writeEdge source target f =>
    cases he : s.findWritableEdge source target <;> simp [cell?, he, Except.toOption] at h

/-- An edge that an access touches is at the centre, and above vertex level alone it is written. -/
theorem of_cell?_edge (ht : s.topology.Valid) {e : EdgeIndex} (h : s.cell? a = some (.edge e)) :
    ∃ i j, s.topology.edges[e]? = some (i, j) ∧ (i = s.centre ∨ j = s.centre) ∧
      (a.isWrite = true → s.level ≠ .vertex) := by
  cases a with
  | readCentre | writeCentre f => simp [cell?] at h
  | readNeighbour id =>
    cases hi : s.findNeighbour id <;> simp [cell?, hi, Except.toOption] at h
  | writeNeighbour id f =>
    cases hi : s.findWritableNeighbour id <;> simp [cell?, hi, Except.toOption] at h
  | readEdge source target =>
    cases he : s.findEdge source target with
    | error err => simp [cell?, he, Except.toOption] at h
    | ok e' =>
      obtain rfl : e' = e := by simpa [cell?, he, Except.toOption] using h
      obtain ⟨i, j, hij, hc⟩ := findEdge_eq_ok ht he
      exact ⟨i, j, hij, hc, nofun⟩
  | writeEdge source target f =>
    cases he : s.findWritableEdge source target with
    | error err => simp [cell?, he, Except.toOption] at h
    | ok e' =>
      obtain rfl : e' = e := by simpa [cell?, he, Except.toOption] using h
      rw [findWritableEdge] at he
      cases hf : s.findEdge source target with
      | error err => simp [hf] at he
      | ok e'' =>
        simp only [hf] at he
        split at he
        · cases he
        · rename_i hlevel
          obtain ⟨i, j, hij, hc⟩ := findEdge_eq_ok ht hf
          exact ⟨i, j, Except.ok.inj he ▸ hij, hc, fun _ => hlevel⟩

end Scope

/-- The pairs of levels at which the locks of two scopes cover what either can do to the other. -/
def Consistency.isolates : Consistency → Consistency → Bool
  | .edge, .edge | .edge, .full | .full, .edge | .full, .full | .vertex, .edge | .edge, .vertex =>
    true
  | .vertex, .vertex | .vertex, .full | .full, .vertex => false

/-- Isolation by levels is mutual. -/
theorem Consistency.isolates_comm (l l' : Consistency) : l.isolates l' = l'.isolates l := by
  cases l <;> cases l' <;> rfl

namespace Access

variable {t : Topology} {v w : VertexIndex} {l l' : Consistency} {a b : Access V E}

/-- Scopes that are apart have different centres. -/
private theorem ne_of_apart (h : Scope.Apart ⟨t, v, l⟩ ⟨t, w, l'⟩) : v ≠ w := by
  rintro rfl
  exact h.not_mem Scope.centre_mem_lockSet Scope.centre_mem_lockSet

/-- Nor are the centres neighbours, since the scope above vertex level would lock the centre of the
other. -/
private theorem not_joins_of_apart (ht : t.Valid) (hl : l.isolates l' = true)
    (h : Scope.Apart ⟨t, v, l⟩ ⟨t, w, l'⟩) : ¬t.Joins v w := by
  intro hj
  have hne := ne_of_apart h
  have hvw : w ∈ t.adjacentOf v := (ht.mem_adjacent v w).mpr ⟨hne.symm, hj⟩
  by_cases hvertex : l = .vertex
  · have hvertex' : l' ≠ .vertex := by
      rintro rfl
      simp [hvertex, Consistency.isolates] at hl
    obtain ⟨m, hm⟩ := Scope.neighbour_mem_lockSet (s := ⟨t, w, l'⟩) hvertex' (ht.adjacent_symm hvw)
    exact h.not_mem Scope.centre_mem_lockSet hm
  · obtain ⟨m, hm⟩ := Scope.neighbour_mem_lockSet (s := ⟨t, v, l⟩) hvertex hvw
    exact h.symm.not_mem Scope.centre_mem_lockSet hm

/-- A write does not touch a cell that an access from a scope apart touches. -/
private theorem cell_ne_of_write (ht : t.Valid) (hl : l.isolates l' = true)
    (h : Scope.Apart ⟨t, v, l⟩ ⟨t, w, l'⟩) (hw : a.isWrite = true) {k : Cell}
    (ha : Scope.cell? ⟨t, v, l⟩ a = some k) (hb : Scope.cell? ⟨t, w, l'⟩ b = some k) : False := by
  have hne := ne_of_apart h
  have hapart := not_joins_of_apart ht hl h
  cases k with
  | vertex i =>
    rcases Scope.of_cell?_vertex ha with hi | ⟨hi, hfull⟩ <;>
      rcases Scope.of_cell?_vertex hb with hi' | ⟨hi', -⟩
    · exact hne (hi.symm.trans hi')
    · obtain rfl : i = v := hi
      exact hapart ((ht.mem_adjacent w i).mp hi').2.symm
    · obtain rfl : i = w := hi'
      exact hapart ((ht.mem_adjacent v i).mp hi).2
    · -- a neighbour that is written is locked by both scopes
      obtain rfl : l = .full := hfull hw
      have hvertex' : l' ≠ .vertex := by
        rintro rfl
        simp [Consistency.isolates] at hl
      obtain ⟨m, hm⟩ := Scope.neighbour_mem_lockSet (s := ⟨t, w, l'⟩) hvertex' hi'
      exact h.not_mem (Scope.mem_lockSet.mpr (.inr ⟨rfl, hi⟩)) hm
  | edge e =>
    obtain ⟨i, j, he, hv, -⟩ := Scope.of_cell?_edge ht ha
    obtain ⟨i', j', he', hw, -⟩ := Scope.of_cell?_edge ht hb
    obtain ⟨rfl, rfl⟩ : i = i' ∧ j = j' := by simpa using he.symm.trans he'
    rcases hv with rfl | rfl <;> rcases hw with rfl | rfl
    · exact hne rfl
    · exact hapart ⟨e, .inl he⟩
    · exact hapart ⟨e, .inr he⟩
    · exact hne rfl

/-- Accesses of scopes that are apart do not meet. -/
theorem not_meet (ht : t.Valid) (hl : l.isolates l' = true) (h : Scope.Apart ⟨t, v, l⟩ ⟨t, w, l'⟩) :
    ¬Meet ⟨t, v, l⟩ a ⟨t, w, l'⟩ b := by
  rintro ⟨k, ha, hb, hw | hw⟩
  · exact cell_ne_of_write ht hl h hw ha hb
  · exact cell_ne_of_write ht (Consistency.isolates_comm l l' ▸ hl) h.symm hw hb ha

end Access

end VertexPrograms
