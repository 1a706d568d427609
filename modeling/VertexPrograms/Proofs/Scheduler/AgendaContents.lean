import Mathlib.Data.List.Pairwise
import Mathlib.Tactic.ByContra
import VertexPrograms.Proofs.Scheduler.HeapOrder
import VertexPrograms.Proofs.Scheduler.Roster

/-!
# What an agenda holds

Whatever its shape, an agenda stands for a list of entries in order of creation. A queue holds their
vertices, the shares hold them sorted by remainder, and the heap holds every one of them exactly
once among stale ones. A stale entry never becomes current again: it is older than any task to come,
and of the task with its number it knows a priority that has since been raised.
-/

namespace VertexPrograms

/-! # The order of entries -/

/-- An entry comes before another one if it is of higher rank, or older at the same rank. -/
theorem Entry.before_iff (a b : Entry) : a.before b = true ↔
    b.priority.rank < a.priority.rank ∨ (a.priority.rank = b.priority.rank ∧ a.seq < b.seq) := by
  have heq : a.priority = b.priority ↔ a.priority.rank = b.priority.rank :=
    ⟨congrArg _, Priority.rank_injective⟩
  simp only [Entry.before, Bool.or_eq_true, Bool.and_eq_true, decide_eq_true_eq, beq_iff_eq, heq]
  exact Iff.rfl

/-- When an entry does not come before another one. -/
private theorem Entry.before_eq_false (a b : Entry) : a.before b = false ↔
    ¬(b.priority.rank < a.priority.rank ∨
      (a.priority.rank = b.priority.rank ∧ a.seq < b.seq)) := by
  rw [← Entry.before_iff, Bool.not_eq_true]

/-- Entries can be ordered in a heap. -/
theorem Entry.before_comparison : Heap.Comparison Entry.before where
  asymm {x y} h := by
    rw [before_iff] at h
    rw [before_eq_false]
    omega
  trans {x y z} h h' := by
    rw [before_eq_false] at *
    omega

/-- The entries of pending tasks: one for each vertex, numbered in ascending order below `next`. -/
structure Entry.Listing (next : Nat) (es : List Entry) : Prop where
  ascending : es.Pairwise fun a b => a.seq < b.seq
  apart : es.Pairwise fun a b => a.vertex ≠ b.vertex
  below : ∀ e ∈ es, e.seq < next

namespace Entry.Listing

variable {next : Nat} {es : List Entry}

/-- Entries of one vertex are the same. -/
theorem eq_of_vertex (h : Listing next es) {a b : Entry} (ha : a ∈ es) (hb : b ∈ es)
    (hv : a.vertex = b.vertex) : a = b := by
  by_contra hne
  have : Std.Symm fun a b : Entry => a.vertex ≠ b.vertex := ⟨fun _ _ h => h.symm⟩
  exact h.apart.forall ha hb hne hv

/-- Entries with one number are the same. -/
theorem eq_of_seq (h : Listing next es) {a b : Entry} (ha : a ∈ es) (hb : b ∈ es)
    (hs : a.seq = b.seq) : a = b := by
  by_contra hne
  have : Std.Symm fun a b : Entry => a.seq ≠ b.seq := ⟨fun _ _ h => h.symm⟩
  exact (h.ascending.imp Nat.ne_of_lt).forall ha hb hne hs

end Entry.Listing

/-- The entry of a task whose priority has been raised. -/
def Entry.raise (v : VertexIndex) (p : Priority) (e : Entry) : Entry :=
  if e.vertex = v then { e with priority := p } else e

@[simp] theorem Entry.vertex_raise (v : VertexIndex) (p : Priority) (e : Entry) :
    (e.raise v p).vertex = e.vertex := by
  unfold raise
  split <;> rfl

@[simp] theorem Entry.seq_raise (v : VertexIndex) (p : Priority) (e : Entry) :
    (e.raise v p).seq = e.seq := by
  unfold raise
  split <;> rfl

/-! # The heap -/

/-- A heap holds the entries of `es` once each, and among them only such as can never come to be
entries of pending tasks again. -/
structure Heap.Holds (next : Nat) (es : List Entry) (heap : Heap Entry) : Prop where
  valid : heap.Valid Entry.before
  once : ∀ e ∈ es, heap.toList.count e = 1
  below : ∀ x ∈ heap.toList, x.seq < next
  outdated : ∀ x ∈ heap.toList, ∀ e ∈ es, e.seq = x.seq → x.priority.rank ≤ e.priority.rank

namespace Heap.Holds

variable {next : Nat} {es : List Entry} {heap : Heap Entry}

theorem empty : (Heap.empty : Heap Entry).Holds next [] :=
  ⟨trivial, by simp, by simp [toList], by simp [toList]⟩

/-- An entry with a new number is added to what a heap holds. -/
theorem add (h : heap.Holds next es) (hes : Entry.Listing next es) {e : Entry}
    (hseq : next ≤ e.seq) : (heap.insert Entry.before e).Holds (e.seq + 1) (es ++ [e]) := by
  have hperm := toList_insert Entry.before e heap
  refine ⟨valid_insert Entry.before_comparison e h.valid, ?_, ?_, ?_⟩
  · intro x hx
    rw [hperm.count_eq, List.count_cons]
    rcases List.mem_append.mp hx with hx | hx
    · have hne : e ≠ x := fun he => Nat.not_le_of_lt (hes.below x hx) (he ▸ hseq)
      simpa [hne] using h.once x hx
    · have hx : x = e := by simpa using hx
      subst hx
      have hnew : x ∉ heap.toList := fun hm => Nat.not_le_of_lt (h.below x hm) hseq
      simp [List.count_eq_zero.mpr hnew]
  · intro x hx
    rcases List.mem_cons.mp (hperm.mem_iff.mp hx) with rfl | hx
    · omega
    · have := h.below x hx
      omega
  · intro x hx y hy hs
    rcases List.mem_cons.mp (hperm.mem_iff.mp hx) with rfl | hx
    · rcases List.mem_append.mp hy with hy | hy
      · have := hes.below y hy
        omega
      · simp_all
    · rcases List.mem_append.mp hy with hy | hy
      · exact h.outdated x hx y hy hs
      · have hy : y = e := by simpa using hy
        have := h.below x hx
        subst hy
        omega

/-- The entry with a raised priority is new to the heap, and no old one is like a raised one. -/
theorem insert_raised (h : heap.Holds next es) (hes : Entry.Listing next es) {e : Entry}
    (he : e ∈ es) {p : Priority} (hp : e.priority < p) :
    (heap.insert Entry.before { e with priority := p }).Holds next
      (es.map (·.raise e.vertex p)) := by
  have hp : e.priority.rank < p.rank := hp
  have hperm := toList_insert Entry.before { e with priority := p } heap
  have hnew : ({ e with priority := p } : Entry) ∉ heap.toList := by
    intro hm
    have := h.outdated _ hm e he rfl
    simp only at this
    omega
  have hraised (x : Entry) (hx : x ∈ es) :
      (x = e ∧ x.raise e.vertex p = { e with priority := p }) ∨
        (x.seq ≠ e.seq ∧ x.raise e.vertex p = x) := by
    by_cases hv : x.vertex = e.vertex
    · have hxe := hes.eq_of_vertex hx he hv
      subst hxe
      exact .inl ⟨rfl, if_pos rfl⟩
    · refine .inr ⟨fun hs => hv ?_, if_neg hv⟩
      rw [hes.eq_of_seq hx he hs]
  refine ⟨valid_insert Entry.before_comparison _ h.valid, ?_, ?_, ?_⟩
  · intro y hy
    obtain ⟨x, hx, rfl⟩ := List.mem_map.mp hy
    rw [hperm.count_eq, List.count_cons]
    rcases hraised x hx with ⟨rfl, hr⟩ | ⟨hs, hr⟩
    · simp [hr, List.count_eq_zero.mpr hnew]
    · have hne : ({ e with priority := p } : Entry) ≠ x := fun h => hs (h ▸ rfl)
      simpa [hr, hne] using h.once x hx
  · intro x hx
    rcases List.mem_cons.mp (hperm.mem_iff.mp hx) with rfl | hx
    · exact hes.below e he
    · exact h.below x hx
  · intro x hx y hy hs
    obtain ⟨z, hz, rfl⟩ := List.mem_map.mp hy
    rw [Entry.seq_raise] at hs
    rcases hraised z hz with ⟨rfl, hr⟩ | ⟨hne, hr⟩
    · rw [hr]
      rcases List.mem_cons.mp (hperm.mem_iff.mp hx) with rfl | hx
      · exact Nat.le_refl _
      · exact Nat.le_of_lt (Nat.lt_of_le_of_lt (h.outdated x hx z hz hs) hp)
    · rw [hr]
      rcases List.mem_cons.mp (hperm.mem_iff.mp hx) with rfl | hx
      · exact absurd hs hne
      · exact h.outdated x hx z hz hs

/-- A heap that is filtered by a test which all entries pass holds them still. -/
theorem filter (h : heap.Holds next es) {current : Entry → Bool}
    (hcur : ∀ e ∈ es, current e = true) : (heap.filter Entry.before current).Holds next es := by
  have hperm := toList_filter Entry.before_comparison current heap
  refine ⟨valid_filter Entry.before_comparison current heap, ?_, ?_, ?_⟩
  · intro e he
    rw [hperm.count_eq, List.count_filter (hcur e he)]
    exact h.once e he
  · exact fun x hx => h.below x (List.mem_filter.mp (hperm.mem_iff.mp hx)).1
  · exact fun x hx => h.outdated x (List.mem_filter.mp (hperm.mem_iff.mp hx)).1

/-- The entry that none of the others is before is the first one of greatest priority. -/
theorem choose?_eq_some (hes : Entry.Listing next es) {e : Entry} (he : e ∈ es)
    (hfirst : ∀ x ∈ es, x.before e = false) (shares worker : Nat) :
    Policy.priority.choose? shares worker Entry.vertex Entry.priority es = some e := by
  simp only [Entry.before_eq_false, not_or, not_and, Nat.not_lt] at hfirst
  rw [Policy.choose?, List.find?_eq_some_iff_append]
  constructor
  · simp only [List.all_eq_true, decide_eq_true_eq]
    exact fun x hx => (hfirst x hx).1
  · obtain ⟨as, bs, rfl⟩ := List.append_of_mem he
    refine ⟨as, bs, rfl, fun a ha => ?_⟩
    have hae : a.seq < e.seq := (List.pairwise_append.mp hes.ascending).2.2 a ha e (by simp)
    have hle := hfirst a (by simp [ha])
    simp only [Bool.not_eq_true', List.all_eq_false, decide_eq_true_eq]
    refine ⟨e, by simp, fun (hge : e.priority.rank ≤ a.priority.rank) => ?_⟩
    have := hle.2 (by omega)
    omega

/-- Popping gives the first entry of greatest priority, and none only if there is none. -/
theorem popUntil_cases (h : heap.Holds next es) (hes : Entry.Listing next es)
    {current : Entry → Bool} (hcur : ∀ e, current e = true ↔ e ∈ es) (shares worker : Nat) :
    (es = [] ∧ ∃ rest, heap.popUntil Entry.before current heap.size = (none, rest) ∧
      rest.Holds next es) ∨
    ∃ e ∈ es, Policy.priority.choose? shares worker Entry.vertex Entry.priority es = some e ∧
      ∃ rest, heap.popUntil Entry.before current heap.size = (some e, rest) ∧
        rest.Holds next (es.filter (·.vertex != e.vertex)) := by
  obtain ⟨passed, found, rest, heq, hperm, hvalid, hpassed, hfound⟩ :=
    popUntil_spec Entry.before_comparison current h.valid
      (Nat.le_of_eq (size_of_valid h.valid).symm)
  have hkept (x : Entry) (hx : x ∈ rest.toList) : x ∈ heap.toList :=
    hperm.mem_iff.mpr (by simp [hx])
  have hold (x : Entry) (hx : x ∈ es) : passed.count x = 0 := by
    refine List.count_eq_zero.mpr fun hm => ?_
    simpa [(hcur x).mpr hx] using hpassed x hm
  cases found with
  | none =>
    have hnil : es = [] := by
      refine List.eq_nil_iff_forall_not_mem.mpr fun x hx => ?_
      have := h.once x hx
      rw [hperm.count_eq, List.count_append, hold x hx, hfound] at this
      simp at this
    refine .inl ⟨hnil, rest, heq, hvalid, ?_, ?_, ?_⟩
    · simp [hnil]
    · exact fun x hx => h.below x (hkept x hx)
    · exact fun x hx => h.outdated x (hkept x hx)
  | some e =>
    have he : e ∈ es := (hcur e).mp hfound.1
    have hmem (x : Entry) (hx : x ∈ es.filter (·.vertex != e.vertex)) : x ∈ es ∧ x ≠ e := by
      obtain ⟨hx, hne⟩ := List.mem_filter.mp hx
      exact ⟨hx, fun h => by simp [h] at hne⟩
    have honce (x : Entry) (hx : x ∈ es) : (e :: rest.toList).count x = 1 := by
      have := h.once x hx
      rwa [hperm.count_eq, List.count_append, hold x hx, Nat.zero_add] at this
    refine .inr ⟨e, he, choose?_eq_some hes he ?_ shares worker, rest, heq, hvalid, ?_, ?_, ?_⟩
    · intro x hx
      have hm : x ∈ e :: rest.toList :=
        List.count_pos_iff.mp (by rw [honce x hx]; exact Nat.one_pos)
      rcases List.mem_cons.mp hm with rfl | hm
      · simp [Entry.before_eq_false]
      · exact hfound.2 x hm
    · intro x hx
      have := honce x (hmem x hx).1
      rwa [List.count_cons_of_ne (hmem x hx).2.symm] at this
    · exact fun x hx => h.below x (hkept x hx)
    · exact fun x hx y hy => h.outdated x (hkept x hx) y (hmem y hy).1

end Heap.Holds

/-! # The agenda of every policy -/

/-- An agenda of a policy, with so many shares if it has any, holds the entries `es`. -/
def Agenda.Holds (policy : Policy) (n next : Nat) (es : List Entry) : Agenda → Prop
  | queue all => policy = .fifo ∧ all.toList = es.map (·.vertex)
  | ranked heap => policy = .priority ∧ heap.Holds next es
  | shares parts => policy = .roundRobin ∧ parts.size = n ∧ 0 < n ∧
      ∀ i q, parts[i]? = some q → q.toList = (es.filter (·.vertex % n == i)).map (·.vertex)

namespace Agenda.Holds

variable {policy : Policy} {n next : Nat} {es : List Entry} {agenda : Agenda}

theorem empty (policy : Policy) (partitions next : Nat) :
    (Agenda.empty policy partitions).Holds policy (max partitions 1) next [] := by
  cases policy with
  | fifo => exact ⟨rfl, rfl⟩
  | priority => exact ⟨rfl, Heap.Holds.empty⟩
  | roundRobin =>
    refine ⟨rfl, Array.size_replicate, by omega, fun i q hq => ?_⟩
    obtain ⟨_, rfl⟩ := Array.getElem?_eq_some_iff.mp hq
    simp [Queue.toList]

/-- A cleared agenda holds nothing, in the same shape. -/
theorem cleared (h : agenda.Holds policy n next es) : agenda.cleared.Holds policy n next [] := by
  cases agenda with
  | queue all => exact ⟨h.1, rfl⟩
  | ranked heap => exact ⟨h.1, Heap.Holds.empty⟩
  | shares parts =>
    refine ⟨h.1, by simp [h.2.1], h.2.2.1, fun i q hq => ?_⟩
    obtain ⟨_, rfl⟩ := Array.getElem?_eq_some_iff.mp hq
    simp [Queue.toList]

/-- The next number may be higher than need be. -/
theorem mono (h : agenda.Holds policy n next es) {next' : Nat} (hle : next ≤ next') :
    agenda.Holds policy n next' es := by
  cases agenda with
  | queue all => exact h
  | ranked heap =>
    exact ⟨h.1, { h.2 with below := fun x hx => Nat.lt_of_lt_of_le (h.2.below x hx) hle }⟩
  | shares parts => exact h

/-- A new task, with a number above all others, is held after them. -/
theorem add (h : agenda.Holds policy n next es) (hes : Entry.Listing next es) {e : Entry}
    (hseq : next ≤ e.seq) : (agenda.add e).Holds policy n (e.seq + 1) (es ++ [e]) := by
  cases agenda with
  | queue all => exact ⟨h.1, by simp [h.2]⟩
  | ranked heap => exact ⟨h.1, h.2.add hes hseq⟩
  | shares parts =>
    obtain ⟨hpolicy, hsize, hn, hparts⟩ := h
    refine ⟨hpolicy, by simp [hsize], hn, fun i q hq => ?_⟩
    rw [Array.getElem?_modify, hsize] at hq
    split at hq
    · rename_i hi
      obtain ⟨q', hq', rfl⟩ := Option.map_eq_some_iff.mp hq
      simp [hparts i q' hq', hi]
    · rename_i hi
      simp [hparts i q hq, hi]

/-- Raising a priority changes the one entry and leaves it in its place. -/
theorem raise (h : agenda.Holds policy n next es) (hes : Entry.Listing next es) {e : Entry}
    (he : e ∈ es) {p : Priority} (hp : e.priority < p) (live : Nat) {current : Entry → Bool}
    (hcur : ∀ x ∈ es.map (·.raise e.vertex p), current x = true) :
    (agenda.raise { e with priority := p } live current).Holds policy n next
      (es.map (·.raise e.vertex p)) := by
  cases agenda with
  | queue all => exact ⟨h.1, by simp [h.2]⟩
  | ranked heap =>
    have hraised := h.2.insert_raised hes he hp
    refine ⟨h.1, ?_⟩
    split
    · exact hraised.filter hcur
    · exact hraised
  | shares parts =>
    refine ⟨h.1, h.2.1, h.2.2.1, fun i q hq => ?_⟩
    simp [h.2.2.2 i q hq, List.filter_map, Function.comp_def]

/-- Without the first of some entries of different vertices the others are left. -/
private theorem filter_first {e : Entry} {tl : List Entry}
    (hes : (e :: tl).Pairwise fun a b => a.vertex ≠ b.vertex) :
    (e :: tl).filter (·.vertex != e.vertex) = tl := by
  rw [List.filter_cons_of_neg (by simp), List.filter_eq_self]
  intro x hx
  simpa using ((List.pairwise_cons.mp hes).1 x hx).symm

/-- Going round from any worker, every share is reached. -/
private theorem exists_offset (hn : 0 < n) (worker v : Nat) :
    ∃ offset < n, (worker + offset) % n = v % n := by
  refine ⟨(v % n + (n - worker % n)) % n, Nat.mod_lt _ hn, ?_⟩
  have hw := Nat.mod_lt worker hn
  have hsum : worker + (v % n + (n - worker % n)) = v % n + n + n * (worker / n) := by
    have := Nat.mod_add_div worker n
    omega
  rw [Nat.add_mod_mod, hsum, Nat.add_mul_mod_self_left, Nat.add_mod_right, Nat.mod_mod]

/-- The queue of a share gives the first entry of the share, and none only if the share has none. -/
private theorem share_cases {parts : Array (Queue VertexIndex)} (hsize : parts.size = n)
    (hparts : ∀ i q, parts[i]? = some q →
      q.toList = (es.filter (·.vertex % n == i)).map (·.vertex)) {i : Nat} (hi : i < n) :
    (es.find? (·.vertex % n == i) = none ∧ (parts[i]?).bind (·.pop?) = none) ∨
    ∃ e rest, es.find? (·.vertex % n == i) = some e ∧
      (parts[i]?).bind (·.pop?) = some (e.vertex, rest) ∧
      rest.toList = (es.filter (·.vertex % n == i)).tail.map (·.vertex) := by
  have hq : parts[i]? = some parts[i] := Array.getElem?_eq_getElem (hsize ▸ hi)
  have hlist := hparts i _ hq
  have hpop := parts[i].pop?_eq
  rw [hq, Option.bind_some, ← List.head?_filter]
  cases hfilter : es.filter (·.vertex % n == i) with
  | nil =>
    rw [hlist, hfilter] at hpop
    exact .inl ⟨rfl, hpop⟩
  | cons e tl =>
    rw [hlist, hfilter] at hpop
    obtain ⟨rest, hrest, htl⟩ := hpop
    exact .inr ⟨e, rest, rfl, hrest, htl⟩

/-- From the shares the entry is taken that the policy chooses, or there is none. -/
private theorem takeShare_cases {parts : Array (Queue VertexIndex)} (hes : Entry.Listing next es)
    (h : (shares parts).Holds policy n next es) (worker : Nat) :
    (es = [] ∧ takeShare parts worker = none) ∨
    ∃ e ∈ es, Policy.roundRobin.choose? n worker Entry.vertex Entry.priority es = some e ∧
      ∃ rest, takeShare parts worker = some (e.vertex, rest) ∧
        (shares rest).Holds policy n next (es.filter (·.vertex != e.vertex)) := by
  obtain ⟨hpolicy, hsize, hn, hparts⟩ := h
  have hcases (offset : Nat) := share_cases hsize hparts (Nat.mod_lt (worker + offset) hn)
  simp only [takeShare, Policy.choose?, hsize]
  cases hfirst : (List.range n).findSome? fun offset =>
      es.find? fun x => x.vertex % n == (worker + offset) % n with
  | none =>
    rw [List.findSome?_eq_none_iff] at hfirst
    refine .inl ⟨?_, ?_⟩
    · refine List.eq_nil_iff_forall_not_mem.mpr fun e he => ?_
      obtain ⟨offset, hlt, heq⟩ := exists_offset hn worker e.vertex
      have := List.find?_eq_none.mp (hfirst offset (List.mem_range.mpr hlt)) e he
      simp [heq] at this
    · refine List.findSome?_eq_none_iff.mpr fun offset hm => ?_
      rcases hcases offset with ⟨_, hnone⟩ | ⟨e, rest, hsome, _⟩
      · rw [hnone]
      · rw [hfirst offset hm] at hsome
        cases hsome
  | some e =>
    obtain ⟨before, offset, behind, hrange, hfind, hskip⟩ := List.findSome?_eq_some_iff.mp hfirst
    have he := List.mem_of_find?_eq_some hfind
    have hei : e.vertex % n = (worker + offset) % n := by simpa using List.find?_some hfind
    obtain ⟨e', rest, hsome, hpop, hrest⟩ := (hcases offset).resolve_left (by simp [hfind])
    obtain rfl : e = e' := Option.some.inj (hfind.symm.trans hsome)
    refine .inr ⟨e, he, rfl, parts.setIfInBounds ((worker + offset) % n) rest, ?_, hpolicy,
      by simp [hsize], hn, fun j q hq => ?_⟩
    · refine List.findSome?_eq_some_iff.mpr ⟨before, offset, behind, hrange, by rw [hpop], ?_⟩
      intro earlier hm
      rcases hcases earlier with ⟨_, hnone⟩ | ⟨_, _, hsome, _⟩
      · rw [hnone]
      · rw [hskip earlier hm] at hsome
        cases hsome
    · rw [Array.getElem?_setIfInBounds] at hq
      split at hq
      · rename_i hj
        obtain rfl : rest = q := by simpa [hsize, Nat.mod_lt _ hn] using hq
        rw [← List.head?_filter] at hfind
        obtain ⟨tl, htl⟩ := List.head?_eq_some_iff.mp hfind
        have hpair := htl ▸ hes.apart.filter fun x : Entry => x.vertex % n == (worker + offset) % n
        rw [hrest, ← hj, htl, List.tail_cons, List.filter_filter]
        simp only [Bool.and_comm]
        rw [← List.filter_filter, htl, filter_first hpair]
      · rename_i hj
        rw [hparts j q hq, List.filter_filter]
        congr 1
        refine List.filter_congr fun x _ => ?_
        cases hxj : x.vertex % n == j with
        | false => rfl
        | true =>
          have hne : x.vertex ≠ e.vertex := fun h => hj (by rw [← hei, ← h]; simpa using hxj)
          simpa using hne

/-- Taking gives the vertex that the policy chooses, and the agenda then holds the others. It gives
none only if there is none to take. -/
theorem take_cases (h : agenda.Holds policy n next es) (hes : Entry.Listing next es)
    {current : Entry → Bool} (hcur : ∀ e, current e = true ↔ e ∈ es) (worker : Nat) :
    (es = [] ∧ ∃ rest, agenda.take worker current = (none, rest) ∧ rest.Holds policy n next es) ∨
    ∃ e ∈ es, policy.choose? n worker Entry.vertex Entry.priority es = some e ∧
      ∃ rest, agenda.take worker current = (some e.vertex, rest) ∧
        rest.Holds policy n next (es.filter (·.vertex != e.vertex)) := by
  cases agenda with
  | queue all =>
    obtain ⟨rfl, hlist⟩ := h
    have hpop := all.pop?_eq
    rw [hlist] at hpop
    cases es with
    | nil =>
      have hpop : all.pop? = none := hpop
      exact .inl ⟨rfl, queue all, by simp only [take, hpop], rfl, hlist⟩
    | cons e tl =>
      obtain ⟨rest, hrest, htl⟩ := hpop
      refine .inr ⟨e, List.mem_cons_self, rfl, queue rest, by simp only [take, hrest], rfl, ?_⟩
      rw [filter_first hes.apart, htl]
  | ranked heap =>
    obtain ⟨rfl, hheap⟩ := h
    rcases hheap.popUntil_cases hes hcur n worker with
      ⟨hnil, rest, heq, hrest⟩ | ⟨e, he, hchoose, rest, heq, hrest⟩
    · exact .inl ⟨hnil, ranked rest, by simp only [take, heq, Option.map_none], rfl, hrest⟩
    · exact .inr ⟨e, he, hchoose, ranked rest, by simp only [take, heq, Option.map_some],
        rfl, hrest⟩
  | shares parts =>
    obtain rfl := h.1
    rcases takeShare_cases hes h worker with ⟨hnil, heq⟩ | ⟨e, he, hchoose, rest, heq, hrest⟩
    · exact .inl ⟨hnil, shares parts, by simp only [take, heq], h⟩
    · exact .inr ⟨e, he, hchoose, shares rest, by simp only [take, heq], hrest⟩

end Agenda.Holds

end VertexPrograms
