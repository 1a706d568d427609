import Mathlib.Data.Fintype.EquivFin
import Mathlib.Logic.Function.Basic
import Mathlib.Logic.Relation
import VertexPrograms.Proofs.Scope.Footprint

/-!
# Freedom from deadlock

Scopes that overlap wait for each other's locks while they hold some of their own. But every scope
takes its locks in ascending order of position. So whoever is waited for waits, if at all, for a
vertex further on, and the waiting never comes back to where it began.
-/

namespace VertexPrograms

variable {V E : Type}

/-! # Locks in conflict -/

/-- Two locks conflict on one vertex only. -/
theorem Lock.vertex_eq_of_conflicts {l m : Lock} (h : m.conflicts l = true) :
    m.vertex = l.vertex := by
  rw [Lock.conflicts, Bool.and_eq_true] at h
  exact eq_of_beq h.1

/-- Conflicts are mutual. -/
theorem Lock.conflicts_comm (l m : Lock) : l.conflicts m = m.conflicts l := by
  rw [Lock.conflicts, Lock.conflicts, LockMode.conflicts, LockMode.conflicts, Bool.or_comm,
    Bool.beq_comm]

/-! # Scopes on their way -/

/-- A scope on its way through its locks: those it holds and those it has still to take, in order.
-/
structure Claimant where
  scope : Scope
  held : List Lock
  missing : List Lock
  ordered : held ++ missing = scope.lockSet

namespace Claimant

variable {a b : Claimant} {l m : Lock}

/-- A scope that holds nothing yet. -/
def fresh (s : Scope) : Claimant := ⟨s, [], s.lockSet, rfl⟩

/-- A scope that holds all its locks. -/
def Full (a : Claimant) : Prop := a.missing = []

/-- The scope with the lock that was next. -/
def take (a : Claimant) (l : Lock) (rest : List Lock) (h : a.missing = l :: rest) : Claimant where
  scope := a.scope
  held := a.held ++ [l]
  missing := rest
  ordered := by rw [List.append_assoc, List.singleton_append, ← h, a.ordered]

theorem take_held {rest : List Lock} (h : a.missing = l :: rest) :
    (a.take l rest h).held = a.held ++ [l] := rfl

/-- The next lock of one scope is held by another in a mode that conflicts. -/
def Waits (a b : Claimant) : Prop :=
  ∃ l rest, a.missing = l :: rest ∧ ∃ m ∈ b.held, m.conflicts l = true

/-- Who misses no lock holds all the locks of the scope. -/
theorem held_of_full (h : a.Full) : a.held = a.scope.lockSet := by
  rw [← a.ordered, show a.missing = [] from h, List.append_nil]

/-- The next lock lies beyond every lock that is held. -/
theorem held_lt_next (ht : a.scope.topology.Valid) {rest : List Lock} (hl : a.missing = l :: rest)
    (hm : m ∈ a.held) : m.vertex < l.vertex := by
  have hascending := Scope.ascending_lockSet ht
  rw [← a.ordered, List.pairwise_append] at hascending
  exact hascending.2.2 m hm l (hl ▸ List.mem_cons_self)

end Claimant

/-- Scopes that take their locks side by side. -/
abbrev Crowd (n : Nat) : Type := Fin n → Claimant

namespace Crowd

variable {n : Nat} {t : Topology} {c c' : Crowd n} {i j : Fin n}

/-- All the scopes are in one graph. -/
def Within (c : Crowd n) (t : Topology) : Prop := ∀ i, (c i).scope.topology = t

/-- The table that has what the scopes hold. -/
def table (c : Crowd n) (t : Topology) : LockTable where
  size := t.vertexCount
  held := (List.finRange n).flatMap fun i => (c i).held

/-- One scope waits for another, or for itself. -/
def Waits (c : Crowd n) (i j : Fin n) : Prop := (c i).Waits (c j)

/-- The next lock of a scope is free. -/
def CanTake (c : Crowd n) (t : Topology) (i : Fin n) : Prop :=
  ∃ l rest, (c i).missing = l :: rest ∧ (c.table t).grants l = true

/-- No vertex is held by two scopes unless both hold it for reading. -/
def Compatible (c : Crowd n) : Prop :=
  ∀ i j, i ≠ j → ∀ l ∈ (c i).held, ∀ m ∈ (c j).held, l.conflicts m = false

/-- The table holds a lock exactly if a scope does. -/
theorem mem_table {l : Lock} : l ∈ (c.table t).held ↔ ∃ i, l ∈ (c i).held := by
  simp [table]

/-- The table grants a lock if no scope holds one that conflicts. -/
theorem grants_table {l : Lock} :
    (c.table t).grants l = true ↔ ∀ i, ∀ m ∈ (c i).held, m.conflicts l = false := by
  rw [LockTable.grants, List.all_eq_true]
  constructor
  · intro h i m hm
    simpa using h m (mem_table.mpr ⟨i, hm⟩)
  · intro h m hm
    obtain ⟨i, hi⟩ := mem_table.mp hm
    simpa using h i m hi

/-! # Waiting -/

/-- Whoever is waited for, however indirectly, holds a lock at or beyond the one that is asked for.
-/
theorem le_of_waits (ht : t.Valid) (hc : c.Within t) (h : Relation.TransGen c.Waits i j) {l : Lock}
    {rest : List Lock} (hl : (c i).missing = l :: rest) : ∃ m ∈ (c j).held,
    l.vertex ≤ m.vertex := by
  -- along the chain: who holds the lock that is asked for asks for one beyond it
  induction h with
  | single hwait =>
    obtain ⟨l', rest', hl', m, hm, hconflict⟩ := hwait
    obtain ⟨rfl, -⟩ : l = l' ∧ rest = rest' := by simpa using hl.symm.trans hl'
    exact ⟨m, hm, (Lock.vertex_eq_of_conflicts hconflict).ge⟩
  | @tail j k _ hwait ih =>
    obtain ⟨m, hm, hle⟩ := ih
    obtain ⟨l', rest', hl', m', hm', hconflict⟩ := hwait
    have hlt : m.vertex < l'.vertex := (c j).held_lt_next (hc j ▸ ht) hl' hm
    have heq : m'.vertex = l'.vertex := Lock.vertex_eq_of_conflicts hconflict
    exact ⟨m', hm', hle.trans (hlt.le.trans heq.ge)⟩

/-- Nobody waits for himself, however indirectly. -/
theorem not_waits_self (ht : t.Valid) (hc : c.Within t) (i : Fin n) :
    ¬Relation.TransGen c.Waits i i := by
  intro h
  obtain ⟨k, ⟨l, rest, hl, -⟩, -⟩ := (Relation.TransGen.head'_iff).mp h
  obtain ⟨m, hm, hle⟩ := le_of_waits ht hc h hl
  have hlt : m.vertex < l.vertex := (c i).held_lt_next (hc i ▸ ht) hl hm
  exact absurd hle hlt.not_ge

/-- A scope that neither holds all its locks nor can take the next one waits for a scope. -/
theorem waits_of_not_canTake (hfull : ¬(c i).Full) (htake : ¬c.CanTake t i) : ∃ j, c.Waits i j := by
  cases hl : (c i).missing with
  | nil => exact absurd hl hfull
  | cons l rest =>
    have hgrants : ¬(c.table t).grants l = true := fun h => htake ⟨l, rest, hl, h⟩
    rw [grants_table] at hgrants
    push Not at hgrants
    obtain ⟨j, m, hm, hconflict⟩ := hgrants
    exact ⟨j, l, rest, hl, m, hm, by simpa using hconflict⟩

/-- Who waits, waits in the end for a scope that can go on. -/
theorem exists_going_on (ht : t.Valid) (hc : c.Within t) (i : Fin n) :
    ∃ j, Relation.ReflTransGen c.Waits i j ∧ ((c j).Full ∨ c.CanTake t j) := by
  have htrans : IsTrans (Fin n) fun j i => Relation.TransGen c.Waits i j :=
    ⟨fun _ _ _ h h' => h'.trans h⟩
  have hirrefl : Std.Irrefl fun j i => Relation.TransGen c.Waits i j := ⟨not_waits_self ht hc⟩
  have hwf : WellFounded fun j i => Relation.TransGen c.Waits i j :=
    Finite.wellFounded_of_trans_of_irrefl _
  induction i using hwf.induction with
  | _ i ih =>
    by_cases hgo : (c i).Full ∨ c.CanTake t i
    · exact ⟨i, .refl, hgo⟩
    · rw [not_or] at hgo
      obtain ⟨k, hk⟩ := waits_of_not_canTake hgo.1 hgo.2
      obtain ⟨j, hkj, hj⟩ := ih k (.single hk)
      exact ⟨j, .head hk hkj, hj⟩

/-! # Taking turns -/

/-- One of the scopes takes its next lock, which is free, or, holding all its locks, makes way for
another. -/
inductive Step (t : Topology) : Crowd n → Crowd n → Prop
  | took {c : Crowd n} (i : Fin n) (l : Lock) (rest : List Lock) (hl : (c i).missing = l :: rest)
      (hgrants : (c.table t).grants l = true) :
      Step t c (Function.update c i ((c i).take l rest hl))
  | released {c : Crowd n} (i : Fin n) (s : Scope) (hs : s.topology = t) (hfull : (c i).Full) :
      Step t c (Function.update c i (.fresh s))

/-- No step leaves the graph. -/
theorem Step.within (h : Step t c c') (hc : c.Within t) : c'.Within t := by
  have hupdate {i : Fin n} {a : Claimant} (ha : a.scope.topology = t) :
      Within (Function.update c i a) t := by
    intro j
    by_cases hj : j = i
    · subst hj
      simpa using ha
    · simpa [hj] using hc j
  cases h with
  | took i l rest hl hgrants => exact hupdate (hc i)
  | released i s hs hfull => exact hupdate hs

/-- One of the scopes may come to hold what conflicts with none of the others. -/
theorem Compatible.update (hc : c.Compatible) {a : Claimant}
    (ha : ∀ j, j ≠ i → ∀ l ∈ a.held, ∀ m ∈ (c j).held, l.conflicts m = false) :
    Compatible (Function.update c i a) := by
  intro j k hjk l hl m hm
  by_cases hj : j = i
  · subst hj
    rw [Function.update_self] at hl
    rw [Function.update_of_ne hjk.symm] at hm
    exact ha k hjk.symm l hl m hm
  · rw [Function.update_of_ne hj] at hl
    by_cases hk : k = i
    · subst hk
      rw [Function.update_self] at hm
      rw [Lock.conflicts_comm]
      exact ha j hj m hm l hl
    · rw [Function.update_of_ne hk] at hm
      exact hc j k hjk l hl m hm

/-- Locks that are free when they are taken do not conflict with those of others. -/
theorem Step.compatible (h : Step t c c') (hc : c.Compatible) : c'.Compatible := by
  cases h with
  | took i l rest hl hgrants =>
    refine hc.update fun j hj l' hl' m hm => ?_
    rw [Claimant.take_held, List.mem_append, List.mem_singleton] at hl'
    rcases hl' with hl' | rfl
    · exact hc i j hj.symm l' hl' m hm
    · rw [Lock.conflicts_comm]
      exact grants_table.mp hgrants j m hm
  | released i s hs hfull => exact hc.update fun j hj l hl => nomatch hl

/-- A course of steps. -/
def Run (t : Topology) : Crowd n → Crowd n → Prop := Relation.ReflTransGen (Step t)

/-- From a beginning at which no scope holds anything, no vertex is ever held by two unless for
reading. -/
theorem Run.compatible (h : Run t c c') (hc : c.Within t) (hheld : ∀ i, (c i).held = []) :
    c'.Within t ∧ c'.Compatible := by
  have hcompatible : c.Compatible := by
    intro i j _ l hl
    rw [hheld i] at hl
    cases hl
  induction h with
  | refl => exact ⟨hc, hcompatible⟩
  | tail _ hstep ih => exact ⟨hstep.within ih.1, hstep.compatible ih.2⟩

/-- Two scopes that hold all their locks at the same time are apart. -/
theorem Compatible.apart (h : c.Compatible) (hij : i ≠ j) (hi : (c i).Full) (hj : (c j).Full) :
    (c i).scope.Apart (c j).scope := by
  intro l hl m hm
  rw [← Claimant.held_of_full hi] at hl
  rw [← Claimant.held_of_full hj] at hm
  exact h i j hij l hl m hm

/-- Scopes of a graph that the store's operations have built, each taking its locks in the order of
its lock set, cannot block each other, whatever locks each of them holds so far: no scope waits for
itself, be it by way of others, and every scope that waits does so in the end for one that holds all
its locks or whose next lock nobody holds in a mode that conflicts. If they began with no locks,
then no vertex is held by two of them unless for reading, and those that hold all their locks are
apart. -/
theorem no_deadlock {g : Store V E} (hg : g.Built) {c : Crowd n} (hc : c.Within g.topology) :
    (∀ i, ¬Relation.TransGen c.Waits i i) ∧
      (∀ i, ∃ j, Relation.ReflTransGen c.Waits i j ∧ ((c j).Full ∨ c.CanTake g.topology j)) ∧
      ∀ c', Run g.topology c c' → (∀ i, (c i).held = []) →
        c'.Compatible ∧ ∀ i j, i ≠ j → (c' i).Full → (c' j).Full →
        (c' i).scope.Apart (c' j).scope := by
  have ht := hg.valid.topology
  refine ⟨not_waits_self ht hc, exists_going_on ht hc, fun c' hrun hheld => ?_⟩
  have hcompatible := (hrun.compatible hc hheld).2
  exact ⟨hcompatible, fun i j hij hi hj => hcompatible.apart hij hi hj⟩

/-- Three scopes of a row: the middle one waits for the first, and the first for the last, which can
go on. -/
def row : Crowd 3
  | 0 =>
    ⟨⟨(Store.row 0 0 0 0 0 : Store Nat Nat).topology, 0, .edge⟩, [⟨0, .write⟩], [⟨1, .read⟩], rfl⟩
  | 1 => .fresh ⟨(Store.row 0 0 0 0 0 : Store Nat Nat).topology, 1, .full⟩
  | 2 =>
    ⟨⟨(Store.row 0 0 0 0 0 : Store Nat Nat).topology, 2, .full⟩, [⟨1, .write⟩], [⟨2, .write⟩], rfl⟩

theorem no_deadlock_row :
    row.Waits 1 0 ∧ row.Waits 0 2 ∧ ¬Relation.TransGen row.Waits 1 1 ∧
      ∃ j, Relation.ReflTransGen row.Waits 1 j ∧
        ((row j).Full ∨ row.CanTake (Store.row 0 0 0 0 0 : Store Nat Nat).topology j) := by
  have hwithin : row.Within (Store.row 0 0 0 0 0 : Store Nat Nat).topology := by
    intro i
    match i with
    | 0 | 1 | 2 => rfl
  obtain ⟨hself, hgo, -⟩ := no_deadlock (Store.row_built 0 0 0 0 0) hwithin
  refine ⟨⟨⟨0, .write⟩, _, rfl, ⟨0, .write⟩, ?_, rfl⟩, ⟨⟨1, .read⟩, _, rfl, ⟨1, .write⟩, ?_, rfl⟩,
    hself 1, hgo 1⟩
  · exact List.mem_singleton_self _
  · exact List.mem_singleton_self _

end Crowd

end VertexPrograms
