import VertexPrograms.Proofs.Scope.Footprint

/-!
# Write exclusion

The level of a scope decides by one rule what the accesses of an update may write and by another
which vertices it locks. The two rules agree: what an access writes is locked for writing, an edge
through the ends that it joins, and above vertex level what an access reads is locked as well. So
scopes whose locks can be held at the same time never write to the same cell, whatever their levels.
-/

namespace VertexPrograms

variable {V E : Type}

namespace Scope

variable {s s' : Scope} {c c' : Cells V E} {a b : Access V E} {k : Cell}

/-- An access to the data `c` is permitted and finds a cell with something in it. -/
structure Touches (s : Scope) (c : Cells V E) (a : Access V E) (k : Cell) : Prop where
  cell : s.cell? a = some k
  answered : ∃ x, (c.perform s a).1 = .ok x

/-- An access to the data `c` succeeds and replaces what was in the cell. -/
structure Writes (s : Scope) (c : Cells V E) (a : Access V E) (k : Cell) :
    Prop extends s.Touches c a k where
  write : a.isWrite = true

/-- There is nothing to modify beyond the end of an array. -/
private theorem modify_of_none {α : Type} {xs : Array α} {i : Nat} (h : xs[i]? = none) (f : α → α) :
    xs.modify i f = xs := by
  have hi : xs.size ≤ i := by simpa using h
  ext j hj hj'
  · simp
  · rw [Array.getElem_modify, if_neg (by omega)]

/-- Where a vertex has no data, nothing is written. -/
private theorem modifyVertex_of_error {i : VertexIndex} {e : Error}
    (h : c.readVertex s i = .error e) (f : V → V) : c.modifyVertex i f = c := by
  rw [Cells.readVertex] at h
  split at h
  · cases h
  · rename_i hnone
    rw [Cells.modifyVertex, modify_of_none hnone]

private theorem modifyEdge_of_error {source target : VertexId} {i : EdgeIndex} {e : Error}
    (h : c.readEdge source target i = .error e) (f : E → E) : c.modifyEdge i f = c := by
  rw [Cells.readEdge] at h
  split at h
  · cases h
  · rename_i hnone
    rw [Cells.modifyEdge, modify_of_none hnone]

/-- An access that does not succeed leaves the data as they are. -/
theorem perform_of_error {e : Error} (h : (c.perform s a).1 = .error e) :
    (c.perform s a).2 = c := by
  cases a with
  | readCentre | readNeighbour id | readEdge source target => exact Cells.perform_read rfl
  | writeCentre f => exact modifyVertex_of_error h f
  | writeNeighbour id f =>
    rw [Cells.perform] at h ⊢
    cases hi : s.findWritableNeighbour id with
    | error _ => rfl
    | ok i =>
      rw [hi] at h
      exact modifyVertex_of_error h f
  | writeEdge source target f =>
    rw [Cells.perform] at h ⊢
    cases hi : s.findWritableEdge source target with
    | error _ => rfl
    | ok i =>
      rw [hi] at h
      exact modifyEdge_of_error h f

/-- An access that changes a cell writes it. -/
theorem writes_of_not_agree (h : ¬c.Agree k (c.perform s a).2) : s.Writes c a k where
  cell := by
    by_contra hk
    exact h (Cells.perform_frame hk)
  answered := by
    cases hx : (c.perform s a).1 with
    | ok x => exact ⟨x, rfl⟩
    | error e =>
      rw [perform_of_error hx] at h
      exact absurd (.refl c) h
  write := by
    by_contra hw
    rw [Cells.perform_read (by simpa using hw)] at h
    exact h (.refl c)

/-- The locks of a scope cover what the accesses of its update can do, on whatever data. -/
structure Guarded (V E : Type) (s : Scope) : Prop where
  vertex_write : ∀ (c : Cells V E) (a : Access V E) (i : VertexIndex),
    s.Writes c a (.vertex i) → ⟨i, .write⟩ ∈ s.lockSet
  edge_write : ∀ (c : Cells V E) (a : Access V E) (e : EdgeIndex), s.Writes c a (.edge e) →
    ∃ i j, s.topology.edges[e]? = some (i, j) ∧ s.Locks i ∧ s.Locks j ∧
      (⟨i, .write⟩ ∈ s.lockSet ∨ ⟨j, .write⟩ ∈ s.lockSet)
  vertex_read : s.level ≠ .vertex → ∀ (c : Cells V E) (a : Access V E) (i : VertexIndex),
    s.Touches c a (.vertex i) → s.Locks i
  edge_read : s.level ≠ .vertex → ∀ (c : Cells V E) (a : Access V E) (e : EdgeIndex),
    s.Touches c a (.edge e) → ∃ i j, s.topology.edges[e]? = some (i, j) ∧ s.Locks i ∧ s.Locks j

/-- Above vertex level both ends of an edge at the centre are locked, the centre for writing. -/
private theorem locks_ends (ht : s.topology.Valid) (hl : s.level ≠ .vertex) {e : EdgeIndex}
    {i j : VertexIndex} (he : s.topology.edges[e]? = some (i, j))
    (hc : i = s.centre ∨ j = s.centre) : s.Locks i ∧ s.Locks j ∧
    (⟨i, .write⟩ ∈ s.lockSet ∨ ⟨j, .write⟩ ∈ s.lockSet) := by
  have hother {n : VertexIndex} (hn : s.topology.Joins s.centre n) : s.Locks n := by
    by_cases hne : n = s.centre
    · subst hne
      exact locks_of_mem centre_mem_lockSet
    · exact neighbour_mem_lockSet hl ((ht.mem_adjacent s.centre n).mpr ⟨hne, hn⟩)
  rcases hc with rfl | rfl
  · exact ⟨locks_of_mem centre_mem_lockSet, hother ⟨e, .inl he⟩, .inl centre_mem_lockSet⟩
  · exact ⟨hother ⟨e, .inr he⟩, locks_of_mem centre_mem_lockSet, .inr centre_mem_lockSet⟩

/-- The rules for accesses and the rules for locks agree. -/
theorem guarded (ht : s.topology.Valid) : s.Guarded V E where
  vertex_write := by
    intro c a i h
    rcases of_cell?_vertex h.cell with rfl | ⟨hi, hfull⟩
    · exact centre_mem_lockSet
    · have hmode : s.level.neighbourMode? = some .write := by
        rw [hfull h.write, Consistency.neighbourMode?]
      exact mem_lockSet.mpr (.inr ⟨hmode, hi⟩)
  edge_write := by
    intro c a e h
    obtain ⟨i, j, he, hc, hlevel⟩ := of_cell?_edge ht h.cell
    exact ⟨i, j, he, locks_ends ht (hlevel h.write) he hc⟩
  vertex_read := by
    intro hl c a i h
    rcases of_cell?_vertex h.cell with rfl | ⟨hi, -⟩
    · exact locks_of_mem centre_mem_lockSet
    · exact neighbour_mem_lockSet hl hi
  edge_read := by
    intro hl c a e h
    obtain ⟨i, j, he, hc, -⟩ := of_cell?_edge ht h.cell
    obtain ⟨hi, hj, -⟩ := locks_ends ht hl he hc
    exact ⟨i, j, he, hi, hj⟩

/-- A vertex that one scope locks for writing is not locked by a scope apart from it. -/
theorem Apart.not_locks (h : s.Apart s') {i : VertexIndex} (hi : ⟨i, .write⟩ ∈ s.lockSet) :
    ¬s'.Locks i := by
  rintro ⟨m, hm⟩
  exact h.not_mem hi hm

/-- Scopes in one graph that are apart do not write to one cell, since both would lock a vertex, one
for writing. -/
theorem Guarded.not_writes (hs : s.Guarded V E) (hs' : s'.Guarded V E)
    (ht : s.topology = s'.topology) (h : s.Apart s') (ha : s.Writes c a k) : ¬s'.Writes c' b k := by
  intro hb
  cases k with
  | vertex i =>
    have hi := hs.vertex_write c a i ha
    have hi' := hs'.vertex_write c' b i hb
    exact h.not_locks hi (locks_of_mem hi')
  | edge e =>
    obtain ⟨i, j, he, -, -, hw⟩ := hs.edge_write c a e ha
    obtain ⟨i', j', he', hi', hj', -⟩ := hs'.edge_write c' b e hb
    obtain ⟨rfl, rfl⟩ : i = i' ∧ j = j' := by
      rw [ht] at he
      simpa using he.symm.trans he'
    rcases hw with hi | hj
    · exact h.not_locks hi hi'
    · exact h.not_locks hj hj'

/-- In a graph that the store's operations have built, the locks of every scope cover the accesses
of its update, and scopes whose locks do not conflict never write to the same cell: of two accesses,
one from each and each to any data, at most one succeeds in writing a cell, and so at most one
changes what is in it. -/
theorem write_exclusion {g : Store V E} (hg : g.Built) (v w : VertexIndex) (l l' : Consistency) :
    Guarded V E ⟨g.topology, v, l⟩ ∧
      (Apart ⟨g.topology, v, l⟩ ⟨g.topology, w, l'⟩ →
        ∀ (c c' : Cells V E) (a b : Access V E) (k : Cell),
          ¬(Writes ⟨g.topology, v, l⟩ c a k ∧ Writes ⟨g.topology, w, l'⟩ c' b k) ∧
          (c.Agree k (c.perform ⟨g.topology, v, l⟩ a).2 ∨
            c'.Agree k (c'.perform ⟨g.topology, w, l'⟩ b).2)) := by
  have hguarded (u : VertexIndex) (m : Consistency) : Guarded V E ⟨g.topology, u, m⟩ :=
    guarded hg.valid.topology
  refine ⟨hguarded v l, fun hapart c c' a b k => ?_⟩
  have hnot (ha : Writes ⟨g.topology, v, l⟩ c a k) : ¬Writes ⟨g.topology, w, l'⟩ c' b k :=
    (hguarded v l).not_writes (hguarded w l') rfl hapart ha
  refine ⟨fun hboth => hnot hboth.1 hboth.2, ?_⟩
  by_contra hchange
  rw [not_or] at hchange
  exact hnot (writes_of_not_agree hchange.1) (writes_of_not_agree hchange.2)

/-- The last vertex of a row writes its neighbour at full level, and the first one, at vertex level,
never does. -/
theorem write_exclusion_row :
    let t := (Store.row 10 20 30 1 2 : Store Nat Nat).topology
    let c : Cells Nat Nat := ⟨#[10, 20, 30], #[1, 2]⟩
    Apart ⟨t, 2, .full⟩ ⟨t, 0, .vertex⟩ ∧
      Writes ⟨t, 2, .full⟩ c (.writeNeighbour ⟨1⟩ (· + 1)) (.vertex 1) ∧
      ∀ (c' : Cells Nat Nat) (b : Access Nat Nat), ¬Writes ⟨t, 0, .vertex⟩ c' b (.vertex 1) := by
  intro t c
  have hapart : Apart ⟨t, 2, .full⟩ ⟨t, 0, .vertex⟩ := by
    unfold Apart
    decide
  have hid : t.require ⟨1⟩ = .ok 1 := (Store.row_built 10 20 30 1 2).valid.topology.require_eq rfl
  have hfind : findWritableNeighbour ⟨t, 2, .full⟩ ⟨1⟩ = .ok 1 := by
    rw [findWritableNeighbour, findNeighbour, find, hid]
    rfl
  have hwrites : Writes ⟨t, 2, .full⟩ c (.writeNeighbour ⟨1⟩ (· + 1)) (.vertex 1) := by
    refine ⟨⟨?_, (20 : Nat), ?_⟩, rfl⟩
    · rw [cell?, hfind]
      rfl
    · rw [Cells.perform, hfind]
      rfl
  refine ⟨hapart, hwrites, fun c' b hb => ?_⟩
  have hboth := (write_exclusion (Store.row_built 10 20 30 1 2) 2 0 .full .vertex).2 hapart c c'
    (.writeNeighbour ⟨1⟩ (· + 1)) b (.vertex 1)
  exact hboth.1 ⟨hwrites, hb⟩

end Scope

end VertexPrograms
