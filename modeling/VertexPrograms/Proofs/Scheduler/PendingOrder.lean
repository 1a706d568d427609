import Mathlib.Tactic.ByContra
import VertexPrograms.Proofs.Scheduler.AgendaContents

/-!
# The pending tasks in order of creation

Pending tasks are kept by vertex and numbered in order of creation. As long as no two of them share
a number, the list in order of creation is determined by what is pending, so that each change of the
table is one plain change of the list: a task at the end, a new priority in place, or a task less.
-/

namespace VertexPrograms.Scheduler

variable {P : Type} {s s' : Scheduler P} {v : VertexIndex} {p p' : Pending P}

/-- The table after a task is entered for a vertex. -/
theorem lookup_insert (pending : Std.ExtTreeMap VertexIndex (Pending P) compare) (v u : VertexIndex)
    (p : Pending P) : (pending.insert v p)[u]? = if v = u then some p else pending[u]? := by
  simp only [Std.ExtTreeMap.getElem?_insert, Std.compare_eq_iff_eq]

/-- The table after the task of a vertex is struck out. -/
theorem lookup_erase (pending : Std.ExtTreeMap VertexIndex (Pending P) compare)
    (v u : VertexIndex) : (pending.erase v)[u]? = if v = u then none else pending[u]? := by
  simp only [Std.ExtTreeMap.getElem?_erase, Std.compare_eq_iff_eq]

/-- No two pending tasks have the same number. -/
def Numbered (pending : Std.ExtTreeMap VertexIndex (Pending P) compare) : Prop :=
  ∀ (u v : VertexIndex) (p q : Pending P), pending[u]? = some p → pending[v]? = some q →
    p.seq = q.seq → u = v

/-- The list in order of creation has exactly the pending tasks. -/
theorem mem_inOrder {x : VertexIndex × Pending P} : x ∈ s.inOrder ↔ s.pending[x.1]? = some x.2 := by
  obtain ⟨v, p⟩ := x
  simp [inOrder]

/-- There are as many tasks in the list as are pending. -/
theorem length_inOrder : s.inOrder.length = s.size := by
  simp [inOrder, size]

/-- The list is empty if nothing is pending. -/
theorem isEmpty_inOrder : s.inOrder.isEmpty = s.isEmpty := by
  rw [isEmpty, Std.ExtTreeMap.isEmpty_eq_size_beq_zero, ← size, ← length_inOrder]
  cases s.inOrder <;> rfl

/-- The list has one task for each vertex. -/
theorem apart_inOrder : s.inOrder.Pairwise fun a b => a.1 ≠ b.1 := by
  refine (List.mergeSort_perm ..).symm.pairwise ?_ fun h => h.symm
  exact Std.ExtTreeMap.distinct_keys_toList.imp fun h heq => h (by simp [heq])

/-- The numbers ascend along the list. -/
theorem ascending_inOrder (h : Numbered s.pending) :
    s.inOrder.Pairwise fun a b => a.2.seq < b.2.seq := by
  have hle : s.inOrder.Pairwise fun a b => decide (a.2.seq ≤ b.2.seq) = true :=
    List.pairwise_mergeSort (by simp only [decide_eq_true_eq]; omega)
      (by simp only [Bool.or_eq_true, decide_eq_true_eq]; omega) _
  refine (hle.and apart_inOrder).imp_of_mem fun {a b} ha hb hab => ?_
  have hne : a.2.seq ≠ b.2.seq := fun heq =>
    hab.2 (h _ _ _ _ (mem_inOrder.mp ha) (mem_inOrder.mp hb) heq)
  have := of_decide_eq_true hab.1
  omega

/-- The list is determined by its members and the order of their numbers. -/
theorem inOrder_eq (h : Numbered s.pending) {l : List (VertexIndex × Pending P)}
    (hasc : l.Pairwise fun a b => a.2.seq < b.2.seq)
    (hmem : ∀ v p, (v, p) ∈ l ↔ s.pending[v]? = some p) : s.inOrder = l := by
  have hnodup {l : List (VertexIndex × Pending P)} (hl : l.Pairwise fun a b => a.2.seq < b.2.seq) :
      l.Nodup := by
    refine hl.imp ?_
    rintro a b hlt rfl
    exact Nat.lt_irrefl _ hlt
  have hperm : s.inOrder.Perm l := by
    refine (List.perm_ext_iff_of_nodup (hnodup (ascending_inOrder h)) (hnodup hasc)).mpr ?_
    exact fun x => mem_inOrder.trans (hmem x.1 x.2).symm
  exact hperm.eq_of_pairwise (fun a b _ _ hab hba => absurd hba (Nat.lt_asymm hab))
    (ascending_inOrder h) hasc

/-- With a task that is numbered higher than all others, numbers stay apart. -/
theorem Numbered.insert_last (h : Numbered s.pending)
    (hlast : ∀ (u : VertexIndex) (q : Pending P), s.pending[u]? = some q → q.seq < p.seq) :
    Numbered (s.pending.insert v p) := by
  intro u w q r hu hw heq
  rw [lookup_insert] at hu hw
  split at hu <;> split at hw
  · simp_all
  · have := hlast _ _ hw
    simp_all
  · have := hlast _ _ hu
    simp_all
  · exact h _ _ _ _ hu hw heq

/-- A task with the highest number comes last. -/
theorem inOrder_insert_last (h : Numbered s.pending) (hnew : s.pending[v]? = none)
    (hlast : ∀ (u : VertexIndex) (q : Pending P), s.pending[u]? = some q → q.seq < p.seq)
    (hs : s'.pending = s.pending.insert v p) : s'.inOrder = s.inOrder ++ [(v, p)] := by
  refine inOrder_eq (hs ▸ h.insert_last hlast) ?_ fun u q => ?_
  · refine List.pairwise_append.mpr ⟨ascending_inOrder h, List.pairwise_singleton .., ?_⟩
    intro a ha b hb
    obtain rfl : b = (v, p) := by simpa using hb
    exact hlast _ _ (mem_inOrder.mp ha)
  · rw [hs, lookup_insert, List.mem_append, mem_inOrder]
    by_cases hv : v = u
    · subst hv
      simp [hnew, eq_comm]
    · simp [hv, Ne.symm hv]

/-- With a task that keeps its number, numbers stay apart. -/
theorem Numbered.insert_same (h : Numbered s.pending) (hold : s.pending[v]? = some p)
    (hseq : p'.seq = p.seq) : Numbered (s.pending.insert v p') := by
  intro u w q r hu hw heq
  rw [lookup_insert] at hu hw
  split at hu <;> split at hw
  · simp_all
  · rename_i hv _
    obtain rfl := Option.some.inj hu
    exact hv ▸ h _ _ _ _ hold hw (hseq ▸ heq)
  · rename_i _ hv
    obtain rfl := Option.some.inj hw
    exact hv ▸ h _ _ _ _ hu hold (hseq ▸ heq)
  · exact h _ _ _ _ hu hw heq

/-- A task that keeps its number keeps its place. -/
theorem inOrder_insert_same (h : Numbered s.pending) (hold : s.pending[v]? = some p)
    (hseq : p'.seq = p.seq) (hs : s'.pending = s.pending.insert v p') :
    s'.inOrder = s.inOrder.map fun x => if x.1 = v then (v, p') else x := by
  have hkeep (x : VertexIndex × Pending P) (hx : x ∈ s.inOrder) :
      (if x.1 = v then (v, p') else x).2.seq = x.2.seq := by
    split
    · rename_i hv
      obtain rfl : x.2 = p := Option.some.inj ((mem_inOrder.mp hx).symm.trans (hv ▸ hold))
      exact hseq
    · rfl
  refine inOrder_eq (hs ▸ h.insert_same hold hseq) ?_ fun u q => ?_
  · refine List.pairwise_map.mpr ((ascending_inOrder h).imp_of_mem fun ha hb hab => ?_)
    rwa [hkeep _ ha, hkeep _ hb]
  · rw [hs, lookup_insert, List.mem_map]
    constructor
    · rintro ⟨x, hx, heq⟩
      split at heq
      · cases heq
        simp
      · rename_i hv
        subst heq
        rw [if_neg (Ne.symm hv)]
        exact mem_inOrder.mp hx
    · intro hq
      split at hq
      · rename_i hv
        refine ⟨(v, p), mem_inOrder.mpr hold, ?_⟩
        simp_all
      · rename_i hv
        exact ⟨(u, q), mem_inOrder.mpr hq, if_neg (Ne.symm hv)⟩

/-- Without one of the tasks, numbers stay apart. -/
theorem Numbered.erase (h : Numbered s.pending) : Numbered (s.pending.erase v) := by
  intro u w q r hu hw heq
  rw [lookup_erase] at hu hw
  split at hu
  · cases hu
  · split at hw
    · cases hw
    · exact h _ _ _ _ hu hw heq

/-- A task that is gone leaves the others as they are. -/
theorem inOrder_erase (h : Numbered s.pending) (hs : s'.pending = s.pending.erase v) :
    s'.inOrder = s.inOrder.filter (·.1 != v) := by
  refine inOrder_eq (hs ▸ h.erase) ((ascending_inOrder h).filter _) fun u q => ?_
  rw [hs, lookup_erase, List.mem_filter, mem_inOrder]
  by_cases hv : v = u
  · simp [hv]
  · simp [hv, Ne.symm hv]

/-- In an empty table no two tasks have one number. -/
theorem Numbered.empty : Numbered (∅ : Std.ExtTreeMap VertexIndex (Pending P) compare) := by
  intro u w q r hu
  simp at hu

/-- When nothing is pending, the list is empty. -/
theorem inOrder_empty (hs : s'.pending = ∅) : s'.inOrder = [] := by
  refine inOrder_eq (hs ▸ Numbered.empty) .nil fun u q => ?_
  simp [hs]

/-- The pending task of a vertex, found in the list. -/
theorem find?_tasks (s : Scheduler P) (v : VertexIndex) :
    s.tasks.find? (·.vertex == v) = (s.pending[v]?).map fun p => ⟨v, p.priority, p.program⟩ := by
  have hfind : s.inOrder.find? (·.1 == v) = (s.pending[v]?).map (v, ·) := by
    cases hv : s.pending[v]? with
    | none =>
      refine List.find?_eq_none.mpr fun x hx heq => ?_
      have hx := mem_inOrder.mp hx
      rw [beq_iff_eq.mp heq, hv] at hx
      cases hx
    | some p =>
      have hm : (v, p) ∈ s.inOrder := mem_inOrder.mpr hv
      cases hfirst : s.inOrder.find? (·.1 == v) with
      | none => simpa using List.find?_eq_none.mp hfirst _ hm
      | some x =>
        have hx := mem_inOrder.mp (List.mem_of_find?_eq_some hfirst)
        obtain ⟨u, q⟩ := x
        obtain rfl : u = v := by simpa using List.find?_some hfirst
        obtain rfl : q = p := Option.some.inj (hx.symm.trans hv)
        rfl
  simp only [tasks, List.find?_map, Function.comp_def]
  rw [hfind, Option.map_map]
  rfl

/-! # Entries -/

/-- The entry of a pending task. -/
def entryOf (x : VertexIndex × Pending P) : Entry := ⟨x.2.priority, x.2.seq, x.1⟩

/-- The entries of the pending tasks, in order of creation. -/
def entries (s : Scheduler P) : List Entry := s.inOrder.map entryOf

/-- The entries are those of the pending tasks. -/
theorem mem_entries {e : Entry} :
    e ∈ s.entries ↔ ∃ p, s.pending[e.vertex]? = some p ∧ p.priority = e.priority ∧
    p.seq = e.seq := by
  simp only [entries, List.mem_map, Prod.exists, mem_inOrder]
  constructor
  · rintro ⟨v, p, hp, rfl⟩
    exact ⟨p, hp, rfl, rfl⟩
  · rintro ⟨p, hp, hpriority, hseq⟩
    refine ⟨e.vertex, p, hp, ?_⟩
    simp only [entryOf, hpriority, hseq]

/-- An entry is current if it is the entry of a pending task. -/
theorem isCurrent_iff {e : Entry} : isCurrent s.pending e = true ↔ e ∈ s.entries := by
  rw [mem_entries, isCurrent]
  cases s.pending[e.vertex]? with
  | none => simp
  | some p => simp

/-- The entries of numbered tasks form a listing. -/
theorem listing (h : Numbered s.pending) {next : Nat}
    (hbelow : ∀ (v : VertexIndex) (p : Pending P), s.pending[v]? = some p → p.seq < next) :
    Entry.Listing next s.entries where
  ascending := List.pairwise_map.mpr (ascending_inOrder h)
  apart := List.pairwise_map.mpr apart_inOrder
  below e he := by
    obtain ⟨p, hp, _, hseq⟩ := mem_entries.mp he
    exact hseq ▸ hbelow _ _ hp

end VertexPrograms.Scheduler
