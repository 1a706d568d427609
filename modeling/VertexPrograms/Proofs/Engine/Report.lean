import VertexPrograms.Proofs.Engine.Truncation

/-!
# The report of failures

The workers of a run append their failures to one list, as they come. The report puts them in the
order of the numbers of the updates, and leaves those at one number as they were appended. So if
each number is the business of one worker, the report does not tell who did what and when: at each
number it has the failures of the round with that number, in the order in which its worker came to
them.
-/

namespace VertexPrograms

variable {V E M P : Type}

/-! # Rows appended to one list -/

section Interleaves

variable {ι α : Type} [DecidableEq ι]

/-- A list to which several rows have been appended, each in its order. -/
inductive Interleaves : (ι → List α) → List α → Prop
  | nil : Interleaves (fun _ => []) []
  | append {rows : ι → List α} {l : List α} (h : Interleaves rows l) (i : ι) (x : α) :
      Interleaves (Function.update rows i (rows i ++ [x])) (l ++ [x])

variable {rows : ι → List α} {l : List α}

/-- What one row appends at once is appended to the interleaving. -/
theorem Interleaves.appendAll (h : Interleaves rows l) (i : ι) (xs : List α) :
    Interleaves (Function.update rows i (rows i ++ xs)) (l ++ xs) := by
  induction xs using List.reverseRecOn with
  | nil => simpa using h
  | append_singleton xs x ih =>
    have hnext := ih.append i x
    rwa [Function.update_self, Function.update_idem, List.append_assoc, List.append_assoc] at hnext

/-- What only one row has is in the list as it is in that row. -/
theorem Interleaves.filter_eq (h : Interleaves rows l) (p : α → Bool) (i : ι)
    (hp : ∀ j, j ≠ i → ∀ x ∈ rows j, p x = false) : l.filter p = (rows i).filter p := by
  induction h with
  | nil => rfl
  | @append rows l h j x ih =>
    have hbefore : l.filter p = (rows i).filter p := by
      refine ih fun k hk y hy => hp k hk y ?_
      by_cases hkj : k = j
      · subst hkj
        rw [Function.update_self]
        exact List.mem_append_left _ hy
      · rwa [Function.update_of_ne hkj]
    rw [List.filter_append, hbefore]
    by_cases hij : i = j
    · subst hij
      rw [Function.update_self, List.filter_append]
    · have hx : p x = false := hp j (Ne.symm hij) x (by simp)
      rw [Function.update_of_ne hij]
      simp [hx]

end Interleaves

/-! # Sorting by number -/

namespace Failure

variable {l l' : List Failure}

private theorem le_trans' (a b c : Failure) (hab : decide (a.atUpdate ≤ b.atUpdate) = true)
    (hbc : decide (b.atUpdate ≤ c.atUpdate) = true) : decide (a.atUpdate ≤ c.atUpdate) = true :=
  decide_eq_true (Nat.le_trans (of_decide_eq_true hab) (of_decide_eq_true hbc))

private theorem le_total' (a b : Failure) :
    (decide (a.atUpdate ≤ b.atUpdate) || decide (b.atUpdate ≤ a.atUpdate)) = true := by
  simpa using Nat.le_total a.atUpdate b.atUpdate

/-- The report is in the order of the numbers. -/
theorem pairwise_report (l : List Failure) : ((report l).map (·.atUpdate)).Pairwise (· ≤ ·) :=
  List.pairwise_map.mpr ((List.pairwise_mergeSort le_trans' le_total' l).imp of_decide_eq_true)

/-- The failures at one number stay as they were. -/
theorem filter_report (l : List Failure) (n : Nat) :
    (report l).filter (·.atUpdate == n) = l.filter (·.atUpdate == n) := by
  have hsame : (l.filter (·.atUpdate == n)).Pairwise fun a b =>
    decide (a.atUpdate ≤ b.atUpdate) = true := by
    refine List.pairwise_of_forall_mem_list fun a ha b hb => ?_
    have ha := eq_of_beq (List.mem_filter.mp ha).2
    have hb := eq_of_beq (List.mem_filter.mp hb).2
    exact decide_eq_true (ha.trans hb.symm).le
  have hsublist : (l.filter (·.atUpdate == n)).Sublist (report l) :=
    List.sublist_mergeSort le_trans' le_total' hsame List.filter_sublist
  have hfilter := hsublist.filter (·.atUpdate == n)
  rw [List.filter_filter] at hfilter
  simp only [Bool.and_self] at hfilter
  have hlength :=
    ((List.mergeSort_perm l fun a b => decide (a.atUpdate ≤ b.atUpdate)).filter
      (·.atUpdate == n)).length_eq
  exact (hfilter.eq_of_length hlength.symm).symm

/-- Lists in the order of the numbers are equal if they have the same at each number. -/
theorem eq_of_filter (hl : (l.map (·.atUpdate)).Pairwise (· ≤ ·))
    (hl' : (l'.map (·.atUpdate)).Pairwise (· ≤ ·))
    (h : ∀ n, l.filter (·.atUpdate == n) = l'.filter (·.atUpdate == n)) : l = l' := by
  have hmem (f : Failure) : f ∈ l ↔ f ∈ l' := by
    simpa using congrArg (f ∈ ·) (h f.atUpdate)
  induction l generalizing l' with
  | nil =>
    exact (List.eq_nil_iff_forall_not_mem.mpr fun f hf => List.not_mem_nil ((hmem f).mpr hf)).symm
  | cons x xs ih =>
    cases l' with
    | nil => exact absurd ((hmem x).mp List.mem_cons_self) List.not_mem_nil
    | cons y ys =>
      obtain ⟨hx, hxs⟩ := List.pairwise_cons.mp hl
      obtain ⟨hy, hys⟩ := List.pairwise_cons.mp hl'
      -- Both begin with a failure at the least number, and have the same first failure at it.
      have hxy : x.atUpdate = y.atUpdate := by
        apply Nat.le_antisymm
        · rcases List.mem_cons.mp ((hmem y).mpr List.mem_cons_self) with rfl | hmem
          · exact Nat.le_refl _
          · exact hx _ (List.mem_map_of_mem hmem)
        · rcases List.mem_cons.mp ((hmem x).mp List.mem_cons_self) with rfl | hmem
          · exact Nat.le_refl _
          · exact hy _ (List.mem_map_of_mem hmem)
      have hhead := h x.atUpdate
      simp only [List.filter_cons, beq_self_eq_true, hxy, if_true, List.cons.injEq] at hhead
      obtain ⟨rfl, htail⟩ := hhead
      have hrest (n : Nat) : xs.filter (·.atUpdate == n) = ys.filter (·.atUpdate == n) := by
        have hn := h n
        simp only [List.filter_cons] at hn
        split at hn
        · exact List.tail_eq_of_cons_eq hn
        · exact hn
      rw [ih hxs hys hrest fun f => by simpa using congrArg (f ∈ ·) (hrest f.atUpdate)]

/-- A report is told by what there is at each number. -/
theorem report_eq_of_filter (h : ∀ n, l.filter (·.atUpdate == n) = l'.filter (·.atUpdate == n)) :
    report l = report l' :=
  eq_of_filter (pairwise_report l) (pairwise_report l') fun n => by
    rw [filter_report, filter_report, h]

end Failure

/-! # Rounds of several workers -/

namespace Round

variable {ι : Type} [DecidableEq ι]

/-- Each number is the business of one worker, who comes to its rounds in some order and appends the
failures of each to one list, at any moments. -/
structure Dealt (qs : List (Round P)) (owner : Nat → ι) (hands : ι → List (Round P))
    (l : List Failure) : Prop where
  perm (w : ι) : (hands w).Perm (qs.filter fun q => decide (owner q.number = w))
  appended : Interleaves (fun w => (hands w).flatMap failures) l

variable {qs : List (Round P)} {owner : Nat → ι} {hands : ι → List (Round P)} {l : List Failure}

/-- There is no failure at a number without a round. -/
theorem filter_failures_eq_nil {n : Nat} (h : ∀ q ∈ qs, q.number ≠ n) :
    (qs.flatMap failures).filter (·.atUpdate == n) = [] := by
  refine List.filter_eq_nil_iff.mpr fun f hf => ?_
  obtain ⟨q, hq, hf⟩ := List.mem_flatMap.mp hf
  simpa [atUpdate_of_mem hf] using h q hq

/-- The rounds of a worker are those it owns. -/
theorem Dealt.mem (h : Dealt qs owner hands l) {w : ι} {q : Round P} :
    q ∈ hands w ↔ q ∈ qs ∧ owner q.number = w := by
  simp [(h.perm w).mem_iff]

/-- At each number the list has what the round with that number has. -/
theorem Dealt.filter_eq (h : Dealt qs owner hands l) (hnodup : (qs.map (·.number)).Nodup)
    (n : Nat) : l.filter (·.atUpdate == n) = (qs.flatMap failures).filter (·.atUpdate == n) := by
  have howner (j : ι) (hj : j ≠ owner n) (f : Failure) (hf : f ∈ (hands j).flatMap failures) :
      (f.atUpdate == n) = false := by
    obtain ⟨q, hq, hf⟩ := List.mem_flatMap.mp hf
    have hq := (h.mem.mp hq).2
    rw [beq_eq_false_iff_ne, atUpdate_of_mem hf]
    rintro rfl
    exact hj hq.symm
  rw [h.appended.filter_eq _ (owner n) howner]
  by_cases hn : ∃ q ∈ qs, q.number = n
  · obtain ⟨q, hq, rfl⟩ := hn
    have hown : ((hands (owner q.number)).map (·.number)).Nodup := by
      have hsublist : (qs.filter fun q' => decide (owner q'.number = owner q.number)).Sublist qs :=
        List.filter_sublist
      exact ((h.perm _).map _).nodup_iff.mpr ((hsublist.map _).nodup hnodup)
    rw [filter_failures hown (h.mem.mpr ⟨hq, rfl⟩), filter_failures hnodup hq]
  · have hnone (q : Round P) (hq : q ∈ qs) : q.number ≠ n := fun heq => hn ⟨q, hq, heq⟩
    rw [filter_failures_eq_nil hnone, filter_failures_eq_nil fun q hq => hnone q (h.mem.mp hq).1]

/-- The report has the failures of the rounds in the order of their numbers, whoever appended them
and when. -/
theorem Dealt.report_eq (h : Dealt qs owner hands l)
    (hascending : (qs.map (·.number)).Pairwise (· < ·)) :
    Failure.report l = qs.flatMap failures := by
  rw [← report_failures hascending]
  exact Failure.report_eq_of_filter (h.filter_eq (hascending.imp Nat.ne_of_lt))

end Round

namespace Engine

variable {host : Host} {e e' : Engine V E M P} {answer : Except Error Unit} {qs : List (Round P)}
  {r : Registry V E}

/-- The report of a run whose rounds, in the order of their numbers, are given. -/
structure Reported (r : Registry V E) (qs : List (Round P)) (answer : Except Error Unit)
    (e : Engine V E M P) : Prop where
  failures : e.failures = qs.flatMap Round.failures
  ascending : (e.failures.map (·.atUpdate)).Pairwise (· ≤ ·)
  /-- The failures at one number are that of its update, if it failed, and then those of the passes
  that failed. -/
  round : ∀ q ∈ qs, e.failures.filter (·.atUpdate == q.number) =
    (q.fault.map fun fault => ⟨.update q.vertex q.program, fault.message, q.number⟩).toList ++
      Registry.failuresOf q.number q.outcomes
  /-- The passes that failed are in the order in which they were registered. -/
  registered : ∀ q ∈ qs, ((q.outcomes.filter (·.fault.isSome)).map (·.key)).Sublist r.keys
  /-- If failures are to end the run, the answer is the first of them. -/
  answer : e.config.abortOnError = true → ∀ f fs, e.failures = f :: fs →
    answer = .error (.execution f.describe)
  /-- The first failure is at the least number that has one, and is that of its update if this
  failed. -/
  first : ∀ f fs, e.failures = f :: fs → ∃ q ∈ qs, q.number = f.atUpdate ∧
    (∀ f' ∈ e.failures, f.atUpdate ≤ f'.atUpdate) ∧
    ∀ fault, q.fault = some fault → f = ⟨.update q.vertex q.program, fault.message, q.number⟩

/-- What closing leaves is told by the report of the failures. -/
theorem close_fst_of_report (habort : e.config.abortOnError = true) {f : Failure}
    {fs : List Failure} (h : Failure.report e.failures = f :: fs) :
    (e.close host).1 = .error (.execution f.describe) := by
  rw [close]
  dsimp only
  rw [habort, h]

theorem close_config (host : Host) (e : Engine V E M P) : (e.close host).2.config = e.config := by
  rw [close]; dsimp only; split <;> rfl

/-- Closing a run reports its rounds, however they were dealt to workers and their failures
appended. -/
theorem close_reported {ι : Type} [DecidableEq ι] {owner : Nat → ι} {hands : ι → List (Round P)}
    (host : Host) (hascending : (qs.map (·.number)).Pairwise (· < ·))
    (hdue : ∀ q ∈ qs, q.outcomes.map (·.key) = r.due q.number)
    (hdealt : Round.Dealt qs owner hands e.failures) :
    Reported r qs (e.close host).1 (e.close host).2 := by
  have hreport := hdealt.report_eq hascending
  have hfailures : (e.close host).2.failures = qs.flatMap Round.failures :=
    (close_failures host e).trans hreport
  have hpairwise : ((e.close host).2.failures.map (·.atUpdate)).Pairwise (· ≤ ·) := by
    rw [close_failures]
    exact Failure.pairwise_report _
  have hround (q : Round P) (hq : q ∈ qs) :
      (e.close host).2.failures.filter (·.atUpdate == q.number) = q.failures := by
    rw [hfailures]
    exact Round.filter_failures (hascending.imp Nat.ne_of_lt) hq
  constructor
  case failures => exact hfailures
  case ascending => exact hpairwise
  case round => exact hround
  case registered =>
    intro q hq
    have hsublist :=
      (List.filter_sublist
        (p := fun o : Registry.Outcome => o.fault.isSome) (l := q.outcomes)).map (·.key)
    rw [hdue q hq] at hsublist
    exact hsublist.trans (r.due_sublist q.number)
  case answer =>
    intro habort f fs hffs
    rw [close_config] at habort
    rw [close_failures] at hffs
    exact close_fst_of_report habort hffs
  case first =>
    intro f fs hffs
    have hf : f ∈ qs.flatMap Round.failures := by
      rw [← hfailures, hffs]
      exact List.mem_cons_self
    obtain ⟨q, hq, hfq⟩ := List.mem_flatMap.mp hf
    have hnumber := Round.atUpdate_of_mem hfq
    refine ⟨q, hq, hnumber.symm, ?_, ?_⟩
    · rw [hffs] at hpairwise ⊢
      intro f' hf'
      rcases List.mem_cons.mp hf' with rfl | hf'
      · exact Nat.le_refl _
      · exact (List.pairwise_cons.mp hpairwise).1 _ (List.mem_map_of_mem hf')
    · intro fault hfault
      have hhead := hround q hq
      rw [hffs, List.filter_cons, hnumber, beq_self_eq_true, if_pos rfl, Round.failures,
        hfault] at hhead
      exact (List.cons.inj hhead).1

end Engine

end VertexPrograms
