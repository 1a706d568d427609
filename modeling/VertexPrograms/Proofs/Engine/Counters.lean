import Mathlib.Algebra.BigOperators.Group.List.Basic
import Mathlib.Algebra.Ring.Nat
import VertexPrograms.Metrics

/-!
# What counters count

A counter is kept as a table of names. To add to a name is to add to its count and to no other, and
to the total of all counts; to merge two counters is to add their counts name by name.
-/

namespace VertexPrograms

namespace Counter

variable {c other : Counter} {name key : String} {n : Nat}

/-- The sum of the counts under all names. -/
def total (c : Counter) : Nat := (c.toList.map (·.2)).sum

@[simp] theorem count_empty (key : String) : count ∅ key = 0 := Std.ExtTreeMap.getD_empty

@[simp] theorem total_empty : total ∅ = 0 := by
  have hnil : (∅ : Counter).toList = [] := Std.ExtTreeMap.toList_eq_nil_iff.mpr rfl
  rw [total, hnil]
  rfl

/-- Adding to a name adds to its count and leaves the others. -/
theorem count_add (c : Counter) (name : String) (n : Nat) (key : String) :
    (c.add name n).count key = c.count key + if name = key then n else 0 := by
  rw [add, count, Std.ExtTreeMap.getD_insert]
  by_cases h : name = key
  · subst h
    simp
  · simp [h, count]

/-- A counter lists each key once. -/
private theorem nodup_toList (c : Counter) : c.toList.Nodup :=
  Std.ExtTreeMap.distinct_keys_toList.imp fun h heq => h (by simp [heq])

/-- The entries of a counter under a name. -/
private theorem filter_toList (counter : Counter) (key : String) :
    counter.toList.filter (·.1 == key) = (counter[key]?).toList.map (key, ·) := by
  have hmem (x : String × Nat) :
      x ∈ counter.toList.filter (·.1 == key) ↔ x ∈ (counter[key]?).toList.map (key, ·) := by
    obtain ⟨k, v⟩ := x
    rw [List.mem_filter, Std.ExtTreeMap.mem_toList_iff_getElem?_eq_some]
    by_cases hk : k = key
    · subst hk
      simp [Option.mem_toList]
    · simp [hk, Ne.symm hk]
  cases hc : counter[key]? with
  | none =>
    rw [hc] at hmem
    exact List.eq_nil_iff_forall_not_mem.mpr fun x hx => by simpa using (hmem x).mp hx
  | some v =>
    rw [hc] at hmem
    have hperm :=
      (List.perm_ext_iff_of_nodup ((nodup_toList counter).filter _)
        (List.pairwise_singleton ..)).mpr hmem
    exact List.perm_singleton.mp hperm

/-- The total is what is counted under a name and what is counted under the others. -/
private theorem total_eq (counter : Counter) (key : String) :
    counter.total = counter.count key + ((counter.toList.filter (·.1 != key)).map (·.2)).sum := by
  have hperm := (List.filter_append_perm (fun x : String × Nat => x.1 == key) counter.toList).symm
  have hsum := (hperm.map (·.2)).sum_eq
  rw [List.map_append, List.sum_append, filter_toList] at hsum
  have hcount : (((counter[key]?).toList.map (key, ·)).map (·.2)).sum = counter.count key := by
    rw [count, Std.ExtTreeMap.getD_eq_getD_getElem?]
    cases counter[key]? <;> simp
  rw [total, hsum, hcount]
  rfl

/-- Adding to a name adds to the total. -/
theorem total_add (c : Counter) (name : String) (n : Nat) : (c.add name n).total = c.total + n := by
  have hothers :
      ((c.add name n).toList.filter (·.1 != name)).Perm (c.toList.filter (·.1 != name)) := by
    refine (List.perm_ext_iff_of_nodup ((nodup_toList _).filter _) ((nodup_toList c).filter _)).mpr
      fun x => ?_
    obtain ⟨k, v⟩ := x
    simp only [List.mem_filter, Std.ExtTreeMap.mem_toList_iff_getElem?_eq_some, add,
      Std.ExtTreeMap.getElem?_insert]
    by_cases hk : k = name
    · simp [hk]
    · simp [Ne.symm hk]
  rw [total_eq (c.add name n) name, total_eq c name, count_add, if_pos rfl,
    (hothers.map (·.2)).sum_eq]
  omega

/-- The entries of another counter are added one after another. -/
private theorem count_foldl (entries : List (String × Nat)) (c : Counter) (key : String) :
    (entries.foldl (fun c (name, n) => c.add name n) c).count key =
      c.count key + ((entries.filter (·.1 == key)).map (·.2)).sum := by
  induction entries generalizing c with
  | nil => rfl
  | cons x entries ih =>
    rw [List.foldl_cons, ih, count_add]
    by_cases hx : x.1 = key
    · simp [hx, Nat.add_assoc]
    · simp [hx]

/-- Merging adds counts name by name. -/
theorem count_merge (c other : Counter) (key : String) :
    (c.merge other).count key = c.count key + other.count key := by
  rw [merge, count_foldl, filter_toList, count.eq_1 other, Std.ExtTreeMap.getD_eq_getD_getElem?]
  cases other[key]? <;> simp

end Counter

namespace Metrics

variable {m : Metrics}

/-- The number of updates is the total of the counts by program. -/
theorem totalUpdates_eq (m : Metrics) : m.totalUpdates = m.updates.total := by
  have hfold (l : List (String × Nat)) (a : Nat) :
      l.foldl (fun total entry => total + entry.2) a = a + (l.map (·.2)).sum := by
    induction l generalizing a with
    | nil => rfl
    | cons x l ih => rw [List.foldl_cons, ih, List.map_cons, List.sum_cons, Nat.add_assoc]
  rw [totalUpdates, hfold, Nat.zero_add]
  rfl

end Metrics

end VertexPrograms
