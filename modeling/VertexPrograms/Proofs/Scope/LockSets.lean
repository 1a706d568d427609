import VertexPrograms.Proofs.Graph.Representation
import VertexPrograms.Scope.Locks

/-!
# What a scope locks

The neighbours of a vertex are listed in ascending order without the vertex itself, and its own lock
is spliced in at its place. So the locks of a scope are in ascending order, with one lock for each
vertex: the centre for writing and, above vertex level, every vertex that an edge joins to it. Two
scopes above vertex level lock each other's centres or neither does.
-/

namespace VertexPrograms

variable {V E : Type}

/-! # Splicing -/

/-- The centre goes before the first neighbour that is not below it. -/
theorem Lock.splice_cons (centre : VertexIndex) (mode : LockMode) (n : VertexIndex)
    (ns : List VertexIndex) : Lock.splice centre mode (n :: ns) =
      if n < centre then ⟨n, mode⟩ :: Lock.splice centre mode ns
      else ⟨centre, .write⟩ :: (n :: ns).map (⟨·, mode⟩) := by
  by_cases hn : n < centre
  · simp [Lock.splice, hn]
  · simp [Lock.splice, hn]

/-- Splicing the centre into ascending neighbours, of which it is none, gives ascending locks. -/
theorem Lock.ascending_splice {centre : VertexIndex} (mode : LockMode) {ns : List VertexIndex}
    (h : ns.Pairwise (· < ·)) (hc : centre ∉ ns) :
    (Lock.splice centre mode ns).Pairwise (·.vertex < ·.vertex) ∧
      ∀ l ∈ Lock.splice centre mode ns, l.vertex = centre ∨ l.vertex ∈ ns := by
  induction ns with
  | nil => simp [Lock.splice]
  | cons n ns ih =>
    obtain ⟨hn, hns⟩ := List.pairwise_cons.mp h
    have hc' : centre ∉ ns := List.not_mem_of_not_mem_cons hc
    have hne : centre ≠ n := List.ne_of_not_mem_cons hc
    rw [Lock.splice_cons]
    split
    · rename_i hlt
      obtain ⟨hascending, hmem⟩ := ih hns hc'
      have hbelow (l : Lock) (hl : l ∈ Lock.splice centre mode ns) : n < l.vertex := by
        rcases hmem l hl with heq | hl
        · rwa [heq]
        · exact hn _ hl
      refine ⟨List.pairwise_cons.mpr ⟨hbelow, hascending⟩, fun l hl => ?_⟩
      rcases List.mem_cons.mp hl with rfl | hl
      · exact .inr List.mem_cons_self
      · exact (hmem l hl).imp_right (List.mem_cons_of_mem n)
    · rename_i hge
      have hlt : centre < n := Nat.lt_of_le_of_ne (Nat.not_lt.mp hge) hne
      have habove (k : VertexIndex) (hk : k ∈ n :: ns) : centre < k := by
        rcases List.mem_cons.mp hk with rfl | hk
        · exact hlt
        · exact Nat.lt_trans hlt (hn k hk)
      constructor
      · refine List.pairwise_cons.mpr ⟨fun l hl => ?_, List.pairwise_map.mpr h⟩
        obtain ⟨k, hk, rfl⟩ := List.mem_map.mp hl
        exact habove k hk
      · intro l hl
        rcases List.mem_cons.mp hl with rfl | hl
        · exact .inl rfl
        · obtain ⟨k, hk, rfl⟩ := List.mem_map.mp hl
          exact .inr hk

/-- Neighbours are locked for reading at edge level and for writing at full level. -/
theorem Consistency.neighbourMode?_eq_some {l : Consistency} {m : LockMode} :
    l.neighbourMode? = some m ↔ l = .edge ∧ m = .read ∨ l = .full ∧ m = .write := by
  cases l <;> simp [neighbourMode?, eq_comm]

namespace Scope

variable {s : Scope} {n : VertexIndex} {m : LockMode}

/-- The centre is none of its neighbours. -/
theorem centre_not_mem_adjacent (ht : s.topology.Valid) :
    s.centre ∉ s.topology.adjacentOf s.centre :=
  fun h => (ht.adjacent_lt h).1 rfl

/-! # Members of the lock set -/

/-- The locks are one on the centre, for writing, and, above vertex level, one on each neighbour. -/
theorem mem_lockSet {l : Lock} : l ∈ s.lockSet ↔
    l = ⟨s.centre, .write⟩ ∨
      s.level.neighbourMode? = some l.mode ∧ l.vertex ∈ s.topology.adjacentOf s.centre := by
  obtain ⟨v, m⟩ := l
  rw [lockSet]
  cases hmode : s.level.neighbourMode? with
  | none => simp
  | some mode =>
    have hsplit : v ∈ s.topology.adjacentOf s.centre ↔
        v ∈ (s.topology.adjacentOf s.centre).takeWhile (· < s.centre) ∨
          v ∈ (s.topology.adjacentOf s.centre).dropWhile (· < s.centre) := by
      rw [← List.mem_append, List.takeWhile_append_dropWhile]
    simp only [Lock.splice, List.mem_append, List.mem_cons, List.mem_map, hsplit, Lock.mk.injEq,
      Option.some.injEq]
    grind

/-- The centre is locked for writing. -/
theorem centre_mem_lockSet : ⟨s.centre, .write⟩ ∈ s.lockSet := mem_lockSet.mpr (.inl rfl)

/-- Above vertex level every neighbour is locked. -/
theorem neighbour_mem_lockSet (hl : s.level ≠ .vertex) {i : VertexIndex}
    (hi : i ∈ s.topology.adjacentOf s.centre) : ∃ m, ⟨i, m⟩ ∈ s.lockSet := by
  cases hmode : s.level.neighbourMode? with
  | none =>
    cases hlevel : s.level <;> simp_all [Consistency.neighbourMode?]
  | some m => exact ⟨m, mem_lockSet.mpr (.inr ⟨hmode, hi⟩)⟩

/-- A vertex other than the centre is locked if an edge joins it to the centre, in the mode of the
level. -/
theorem mem_lockSet_of_ne (ht : s.topology.Valid) (hn : n ≠ s.centre) :
    ⟨n, m⟩ ∈ s.lockSet ↔ s.level.neighbourMode? = some m ∧ s.topology.Joins s.centre n := by
  have hcentre : (⟨n, m⟩ : Lock) ≠ ⟨s.centre, .write⟩ := fun h => hn (congrArg Lock.vertex h)
  rw [mem_lockSet, ht.mem_adjacent]
  simp only [hcentre, hn, false_or, ne_eq, not_false_eq_true, true_and]

/-- The centre is locked for writing only. -/
theorem mem_lockSet_centre (ht : s.topology.Valid) : ⟨s.centre, m⟩ ∈ s.lockSet ↔ m = .write := by
  rw [mem_lockSet]
  simp only [centre_not_mem_adjacent ht, and_false, or_false, Lock.mk.injEq, true_and]

/-! # Order -/

/-- The locks of a scope are strictly ascending, so that no vertex is locked twice. -/
theorem ascending_lockSet (ht : s.topology.Valid) : s.lockSet.Pairwise (·.vertex < ·.vertex) := by
  rw [lockSet]
  cases s.level.neighbourMode? with
  | none => exact List.pairwise_singleton _ _
  | some mode =>
    exact (Lock.ascending_splice mode (ht.adjacent_ascending s.centre)
      (centre_not_mem_adjacent ht)).1

/-- The lock on the centre is taken once. -/
theorem count_centre (ht : s.topology.Valid) : s.lockSet.count ⟨s.centre, .write⟩ = 1 := by
  have hnodup : s.lockSet.Nodup := by
    refine (ascending_lockSet ht).imp ?_
    rintro a b hlt rfl
    exact Nat.lt_irrefl _ hlt
  rw [hnodup.count, if_pos centre_mem_lockSet]

/-! # Who locks whom -/

/-- The scope locks a vertex, in one mode or the other. -/
def Locks (s : Scope) (i : VertexIndex) : Prop := ∃ m, ⟨i, m⟩ ∈ s.lockSet

theorem locks_of_mem {i : VertexIndex} {m : LockMode} (h : ⟨i, m⟩ ∈ s.lockSet) : s.Locks i := ⟨m, h⟩

/-- Above vertex level the locked vertices are the centre and those that an edge joins to it. -/
theorem locks_iff (ht : s.topology.Valid) (hl : s.level ≠ .vertex) :
    s.Locks n ↔ n = s.centre ∨ s.topology.Joins s.centre n := by
  constructor
  · rintro ⟨m, hm⟩
    by_cases hn : n = s.centre
    · exact .inl hn
    · exact .inr ((mem_lockSet_of_ne ht hn).mp hm).2
  · rintro (rfl | hjoins)
    · exact locks_of_mem centre_mem_lockSet
    · by_cases hn : n = s.centre
      · exact hn ▸ locks_of_mem centre_mem_lockSet
      · exact neighbour_mem_lockSet hl ((ht.mem_adjacent s.centre n).mpr ⟨hn, hjoins⟩)

/-- Above vertex level two scopes in one graph lock each other's centres, or neither does. -/
theorem locks_comm {t : Topology} (ht : t.Valid) {c n : VertexIndex} {l l' : Consistency}
    (hl : l ≠ .vertex) (hl' : l' ≠ .vertex) : Locks ⟨t, c, l⟩ n ↔ Locks ⟨t, n, l'⟩ c := by
  rw [locks_iff ht hl, locks_iff ht hl', eq_comm]
  exact or_congr_right ⟨Topology.Joins.symm, Topology.Joins.symm⟩

/-- In a graph that the store's operations have built, the locks of every scope are strictly
ascending. The centre is locked once, for writing; no other vertex is at vertex level, and above it
exactly those are that an edge joins to the centre in either direction, for reading at edge level
and for writing at full level. So above vertex level a vertex locks another one if and only if that
locks it. -/
theorem lockSet_exact {g : Store V E} (hg : g.Built) (c : VertexIndex) (l : Consistency) :
    let s : Scope := ⟨g.topology, c, l⟩
    s.lockSet.Pairwise (·.vertex < ·.vertex) ∧ s.lockSet.count ⟨c, .write⟩ = 1 ∧
      (∀ n m, ⟨n, m⟩ ∈ s.lockSet ↔ n = c ∧ m = .write ∨
        n ≠ c ∧ g.topology.Joins c n ∧ (l = .edge ∧ m = .read ∨ l = .full ∧ m = .write)) ∧
      ∀ n l', l ≠ .vertex → l' ≠ .vertex → (s.Locks n ↔ Locks ⟨g.topology, n, l'⟩ c) := by
  intro s
  have ht : s.topology.Valid := hg.valid.topology
  refine ⟨ascending_lockSet ht, count_centre ht, fun n m => ?_, fun n l' hl hl' =>
    locks_comm ht hl hl'⟩
  by_cases hn : n = c
  · subst hn
    have hcentre : ⟨n, m⟩ ∈ s.lockSet ↔ m = .write := mem_lockSet_centre ht
    simp [hcentre]
  · have hother : ⟨n, m⟩ ∈ s.lockSet ↔ l.neighbourMode? = some m ∧ g.topology.Joins c n :=
      mem_lockSet_of_ne ht hn
    rw [hother, Consistency.neighbourMode?_eq_some, and_comm]
    simp [hn]

/-- In a row the lock of the middle one goes between those of its neighbours, which are locked for
reading. -/
theorem lockSet_exact_row :
    let t := (Store.row 0 0 0 0 0 : Store Nat Nat).topology
    (Scope.mk t 1 .edge).lockSet = [⟨0, .read⟩, ⟨1, .write⟩, ⟨2, .read⟩] ∧
      (Scope.mk t 1 .edge).lockSet.Pairwise (·.vertex < ·.vertex) ∧ t.Joins 1 2 ∧
      Locks ⟨t, 2, .full⟩ 1 := by
  intro t
  obtain ⟨hascending, -, hmem, hcomm⟩ := lockSet_exact (Store.row_built 0 0 0 0 0) 1 .edge
  have hread : (⟨2, .read⟩ : Lock) ∈ (Scope.mk t 1 .edge).lockSet := by decide
  have hjoins : t.Joins 1 2 := (((hmem 2 .read).mp hread).resolve_left (by decide)).2.1
  exact ⟨rfl, hascending, hjoins, (hcomm 2 .full (by decide) (by decide)).mp (locks_of_mem hread)⟩

end Scope

end VertexPrograms
