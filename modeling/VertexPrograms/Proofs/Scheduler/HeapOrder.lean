import VertexPrograms.Scheduler.Heap

/-!
# Heap order

The elements of a heap are a list up to order, and every operation is described by what it does to
that list. A valid heap knows its size and has no element before one above it, so that what is
popped is foremost. The comparison need only be strict and weak: elements that stand side by side
may be many.
-/

namespace VertexPrograms.Heap

variable {α : Type} {before : α → α → Bool}

/-- What a comparison must satisfy for a heap to be ordered by it. -/
structure Comparison (before : α → α → Bool) : Prop where
  /-- No two elements are before each other. -/
  asymm : ∀ {x y}, before x y = true → before y x = false
  /-- Not being before is transitive. -/
  trans : ∀ {x y z}, before y x = false → before z y = false → before z x = false

/-- The stored sizes are right, and no element is before one above it. -/
def Valid (before : α → α → Bool) : Heap α → Prop
  | empty => True
  | node n x l r =>
    n = l.toList.length + r.toList.length + 1 ∧ (∀ y ∈ l.toList ++ r.toList, before y x = false) ∧
      Valid before l ∧ Valid before r

/-- The size at hand is the number of elements. -/
theorem size_of_valid {h : Heap α} (hv : h.Valid before) : h.size = h.toList.length := by
  cases h with
  | empty => rfl
  | node n x l r => simp only [size, toList, hv.1, List.length_cons, List.length_append]

/-! # Merging -/

/-- Joining keeps the elements of both trees under the new top. -/
theorem toList_join (x : α) (a b : Heap α) :
    (join x a b).toList.Perm (x :: (a.toList ++ b.toList)) := by
  unfold join
  split
  · exact .refl _
  · exact List.perm_append_comm.cons x

/-- Joining under an element that nothing is before gives a valid heap. -/
theorem valid_join {x : α} {a b : Heap α} (ha : a.Valid before) (hb : b.Valid before)
    (hx : ∀ y ∈ a.toList ++ b.toList, before y x = false) : (join x a b).Valid before := by
  unfold join
  split
  · exact ⟨by rw [size_of_valid ha, size_of_valid hb], hx, ha, hb⟩
  · refine ⟨by rw [size_of_valid ha, size_of_valid hb, Nat.add_comm a.toList.length], ?_, hb, ha⟩
    intro y hy
    exact hx y (List.perm_append_comm.mem_iff.mp hy)

/-- A node merged with a heap has the entries of both. -/
private theorem toList_mergeNode {x : α} {l r : Heap α} {rest : Heap α → Heap α}
    (hrest : ∀ b, (rest b).toList.Perm (r.toList ++ b.toList)) (b : Heap α) :
    (mergeNode before x l r rest b).toList.Perm (x :: (l.toList ++ r.toList) ++ b.toList) := by
  induction b with
  | empty => simpa only [mergeNode, toList, List.append_nil] using toList_join x l r
  | node n y l' r' _ ihr =>
    unfold mergeNode
    split
    · calc (join y l' (mergeNode before x l r rest r')).toList
        _ |>.Perm (y :: (l'.toList ++ (x :: (l.toList ++ r.toList) ++ r'.toList))) :=
          (toList_join ..).trans ((ihr.append_left _).cons y)
        _ |>.Perm (y :: (x :: (l.toList ++ r.toList) ++ (l'.toList ++ r'.toList))) := by
          refine .cons y ?_
          simpa only [List.append_assoc] using (List.perm_append_comm_assoc ..)
        _ |>.Perm (x :: (l.toList ++ r.toList) ++ (node n y l' r').toList) :=
          List.perm_middle.symm
    · refine (toList_join ..).trans (.cons x ?_)
      change (l.toList ++ _).Perm (l.toList ++ r.toList ++ _)
      rw [List.append_assoc]
      exact (hrest _).append_left l.toList

/-- Merging keeps the elements of both heaps. -/
theorem toList_merge (before : α → α → Bool) (a b : Heap α) :
    (merge before a b).toList.Perm (a.toList ++ b.toList) := by
  induction a generalizing b with
  | empty => exact .refl _
  | node n x l r _ ihr => exact toList_mergeNode ihr b

/-- A node merged with a valid heap is a valid heap. -/
private theorem valid_mergeNode (hc : Comparison before) {n : Nat} {x : α} {l r : Heap α}
    {rest : Heap α → Heap α} (hxl : (node n x l r).Valid before)
    (hperm : ∀ b, (rest b).toList.Perm (r.toList ++ b.toList))
    (hrest : ∀ b, b.Valid before → (rest b).Valid before) {b : Heap α} (hb : b.Valid before) :
    (mergeNode before x l r rest b).Valid before := by
  obtain ⟨_, hx, hl, hr⟩ := hxl
  induction b with
  | empty => exact valid_join hl hr hx
  | node m y l' r' _ ihr =>
    obtain ⟨hm, hy, hl', hr'⟩ := hb
    unfold mergeNode
    split
    · rename_i hyx
      refine valid_join hl' (ihr hr') fun z hz => ?_
      have hz' : z ∈ l'.toList ++ (x :: (l.toList ++ r.toList) ++ r'.toList) :=
        ((toList_mergeNode hperm r').append_left _).mem_iff.mp hz
      simp only [List.mem_append, List.mem_cons, or_assoc] at hz' hx hy
      have hxy := hc.asymm hyx
      rcases hz' with hz | rfl | hz | hz | hz
      · exact hy z (.inl hz)
      · exact hxy
      · exact hc.trans hxy (hx z (.inl hz))
      · exact hc.trans hxy (hx z (.inr hz))
      · exact hy z (.inr hz)
    · rename_i hyx
      have hyx : before y x = false := Bool.not_eq_true _ ▸ hyx
      refine valid_join hl (hrest _ ⟨hm, hy, hl', hr'⟩) fun z hz => ?_
      have hz' : z ∈ l.toList ++ (r.toList ++ (node m y l' r').toList) :=
        ((hperm _).append_left _).mem_iff.mp hz
      simp only [toList, List.mem_append, List.mem_cons] at hz' hx hy
      rcases hz' with hz | hz | rfl | hz
      · exact hx z (.inl hz)
      · exact hx z (.inr hz)
      · exact hyx
      · exact hc.trans hyx (hy z hz)

/-- Merging valid heaps gives a valid heap. -/
theorem valid_merge (hc : Comparison before) {a b : Heap α} (ha : a.Valid before)
    (hb : b.Valid before) : (merge before a b).Valid before := by
  induction a generalizing b with
  | empty => exact hb
  | node n x l r _ ihr =>
    exact valid_mergeNode hc ha (toList_merge before r) (fun _ hb => ihr ha.2.2.2 hb) hb

/-! # Adding and dropping elements -/

/-- An added element joins the others. -/
theorem toList_insert (before : α → α → Bool) (x : α) (h : Heap α) :
    (h.insert before x).toList.Perm (x :: h.toList) := by
  refine (toList_merge ..).trans ?_
  exact (toList_join x empty empty).append_right h.toList

/-- Adding an element keeps a heap valid. -/
theorem valid_insert (hc : Comparison before) (x : α) {h : Heap α} (hv : h.Valid before) :
    (h.insert before x).Valid before :=
  valid_merge hc (valid_join trivial trivial (by simp [toList])) hv

/-- Entries inserted one after another are all in a valid heap. -/
private theorem foldl_insert (hc : Comparison before) (xs : List α) {h : Heap α}
    (hv : h.Valid before) :
    let out := xs.foldl (fun h x => h.insert before x) h
    out.toList.Perm (xs ++ h.toList) ∧ out.Valid before := by
  induction xs generalizing h with
  | nil => exact ⟨.refl _, hv⟩
  | cons x xs ih =>
    obtain ⟨hp, hv'⟩ := ih (valid_insert hc x hv)
    refine ⟨hp.trans ?_, hv'⟩
    exact ((toList_insert before x h).append_left xs).trans List.perm_middle

/-- Filtering keeps the elements with the property. -/
theorem toList_filter (hc : Comparison before) (p : α → Bool) (h : Heap α) :
    (h.filter before p).toList.Perm (h.toList.filter p) := by
  simpa only [filter, ofList, toList, List.append_nil] using
    (foldl_insert hc (h.toList.filter p) (h := empty) trivial).1

/-- A filtered heap is valid. -/
theorem valid_filter (hc : Comparison before) (p : α → Bool) (h : Heap α) :
    (h.filter before p).Valid before :=
  (foldl_insert hc (h.toList.filter p) (h := empty) trivial).2

/-! # Popping -/

/-- What popping until a property holds does: the elements passed over lack the property, and the
one that is found has it, and none of the rest is before it. Only a heap that is used up gives none.
-/
theorem popUntil_spec (hc : Comparison before) (p : α → Bool) {steps : Nat} {h : Heap α}
    (hv : h.Valid before) (hs : h.toList.length ≤ steps) :
    ∃ passed found rest, h.popUntil before p steps = (found, rest) ∧
      h.toList.Perm (passed ++ (found.toList ++ rest.toList)) ∧ rest.Valid before ∧
      (∀ x ∈ passed, p x = false) ∧
      match found with
      | none => rest.toList = []
      | some x => p x = true ∧ ∀ y ∈ rest.toList, before y x = false := by
  induction steps generalizing h with
  | zero =>
    have hnil : h.toList = [] := List.eq_nil_of_length_eq_zero (Nat.le_zero.mp hs)
    exact ⟨[], none, h, rfl, .refl _, hv, by simp, hnil⟩
  | succ steps ih =>
    cases h with
    | empty => exact ⟨[], none, empty, rfl, .refl _, trivial, by simp, rfl⟩
    | node n x l r =>
      obtain ⟨_, hx, hl, hr⟩ := hv
      have hperm := toList_merge before l r
      have hvalid := valid_merge hc hl hr
      simp only [popUntil, pop?]
      cases hp : p x with
      | true =>
        refine ⟨[], some x, merge before l r, rfl, hperm.symm.cons x, hvalid, by simp, hp, ?_⟩
        exact fun y hy => hx y (hperm.mem_iff.mp hy)
      | false =>
        have hlen : (merge before l r).toList.length ≤ steps := by
          rw [hperm.length_eq]
          simpa only [toList, List.length_cons, Nat.add_le_add_iff_right] using hs
        obtain ⟨passed, found, rest, heq, hlist, hrest, hpassed, hfound⟩ := ih hvalid hlen
        refine ⟨x :: passed, found, rest, heq, (hperm.symm.trans hlist).cons x, hrest, ?_, hfound⟩
        simpa only [List.mem_cons, forall_eq_or_imp] using And.intro hp hpassed

end VertexPrograms.Heap
