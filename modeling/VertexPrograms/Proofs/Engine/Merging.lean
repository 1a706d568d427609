import VertexPrograms.Proofs.Engine.Counters

/-!
# Merging what several workers have noted

Each worker notes updates, passes and failures in metrics of its own, and these are merged when all
have left. However the notes are dealt out to the workers, and in whatever order the metrics are
merged, every name has the count that it would have if one worker had noted everything. A counter
has an entry for what has been counted and for nothing else, so that not only the counts are the
same but the tables of them.
-/

namespace VertexPrograms

namespace Counter

variable {a b : Counter} {key : String} {n : Nat}

/-- Every name in the table has been counted. -/
def Proper (a : Counter) : Prop := ∀ (key : String) (n : Nat), a[key]? = some n → 0 < n

theorem count_eq (a : Counter) (key : String) : a.count key = (a[key]?).getD 0 :=
  Std.ExtTreeMap.getD_eq_getD_getElem?

namespace Proper

theorem empty : Proper ∅ := by
  intro key n hn
  simp at hn

/-- A name has an entry, with its count, if it has been counted. -/
theorem getElem?_eq (h : a.Proper) (key : String) :
    a[key]? = if 0 < a.count key then some (a.count key) else none := by
  rw [count_eq]
  cases hkey : a[key]? with
  | none => simp
  | some n => simp [h key n hkey]

/-- The names in the table are those that have been counted. -/
theorem mem_iff (h : a.Proper) : key ∈ a ↔ 0 < a.count key := by
  rw [Std.ExtTreeMap.mem_iff_isSome_getElem?, h.getElem?_eq]
  split <;> simp_all

/-- The counts determine the table. -/
theorem ext (h : a.Proper) (h' : b.Proper) (heq : ∀ key, a.count key = b.count key) : a = b := by
  refine Std.ExtTreeMap.ext_getElem? fun {key} => ?_
  rw [h.getElem?_eq, h'.getElem?_eq, heq]

/-- A counter stays proper if a number is added that is not zero. -/
theorem add (h : a.Proper) (name : String) (hn : 0 < n) : (a.add name n).Proper := by
  intro key k hk
  rw [Counter.add, Std.ExtTreeMap.getElem?_insert] at hk
  split at hk
  · obtain rfl := Option.some.inj hk
    omega
  · exact h key k hk

theorem foldl_add {entries : List (String × Nat)} (h : a.Proper) (hpos : ∀ x ∈ entries, 0 < x.2) :
    (entries.foldl (fun a (name, n) => a.add name n) a).Proper := by
  induction entries generalizing a with
  | nil => exact h
  | cons x entries ih =>
    exact ih (h.add x.1 (hpos x List.mem_cons_self)) fun y hy => hpos y (List.mem_cons_of_mem x hy)

theorem merge (h : a.Proper) (h' : b.Proper) : (a.merge b).Proper :=
  h.foldl_add fun x hx => h' x.1 x.2 (Std.ExtTreeMap.mem_toList_iff_getElem?_eq_some.mp hx)

end Proper

end Counter

namespace Metrics

variable {m other : Metrics}

/-! # What is merged -/

/-- The updates of another metrics object are added, and every program among them gets an average.
-/
private theorem foldl_mergeProgram (other m : Metrics) (entries : List (String × Nat)) :
    let merged := entries.foldl (mergeProgram other) m
    merged.updates = entries.foldl (fun c (name, n) => c.add name n) m.updates ∧
      ∀ program, program ∈ merged.averages ↔ program ∈ m.averages ∨
        program ∈ entries.map (·.1) := by
  induction entries generalizing m with
  | nil => simp
  | cons x entries ih =>
    obtain ⟨hupdates, haverages⟩ := ih (mergeProgram other m x)
    refine ⟨hupdates, fun program => (haverages program).trans ?_⟩
    rw [mergeProgram, Std.ExtTreeMap.mem_insert, Std.compare_eq_iff_eq, List.map_cons,
      List.mem_cons, ← or_assoc, or_comm (a := x.1 = program), eq_comm]

/-- The counts by program are merged. -/
theorem updates_merge (m other : Metrics) :
    (m.merge other).updates = m.updates.merge other.updates :=
  (foldl_mergeProgram other m other.updates.toList).1

/-- Merged metrics have an average for the programs that either has counted. -/
theorem mem_averages_merge (m other : Metrics) (program : String) :
    program ∈ (m.merge other).averages ↔ program ∈ m.averages ∨ program ∈ other.updates := by
  refine ((foldl_mergeProgram other m other.updates.toList).2 program).trans (or_congr_right ?_)
  rw [Std.ExtTreeMap.map_fst_toList_eq_keys, Std.ExtTreeMap.mem_keys]

/-- The number of updates depends on the counts by program only. -/
theorem totalUpdates_congr (h : m.updates = other.updates) :
    m.totalUpdates = other.totalUpdates := by
  rw [totalUpdates_eq, totalUpdates_eq, h]

/-! # Notes -/

/-- Something that a worker notes. -/
inductive Note where
  | update (program : String) (nanoseconds : Nat)
  | pass (key : String)
  | failure
  deriving DecidableEq, Repr

namespace Note

def isUpdate (program : String) : Note → Bool
  | update p _ => p == program
  | pass _ | failure => false

def isPass (key : String) : Note → Bool
  | pass k => k == key
  | update _ _ | failure => false

def isFailure : Note → Bool
  | failure => true
  | update _ _ | pass _ => false

end Note

/-- The metrics with one more note. -/
def record (m : Metrics) : Note → Metrics
  | .update program nanoseconds => m.recordUpdate program nanoseconds
  | .pass key => m.recordPass key
  | .failure => m.recordFailures 1

/-- The metrics of a worker that has noted this. -/
def recorded (notes : List Note) : Metrics := notes.foldl record {}

/-- The metrics of several workers, merged one after another. -/
def mergeAll (ms : List Metrics) : Metrics := ms.foldl merge {}

/-- The counts are those of the notes, and the programs that are counted are those with an average.
-/
structure Tells (m : Metrics) (notes : List Note) : Prop where
  updates : ∀ program, m.updates.count program = notes.countP (·.isUpdate program)
  passes : ∀ key, m.passes.count key = notes.countP (·.isPass key)
  failures : m.failures = notes.countP (·.isFailure)
  updates_proper : m.updates.Proper
  passes_proper : m.passes.Proper
  timed : ∀ program, program ∈ m.averages ↔ program ∈ m.updates

namespace Tells

variable {notes notes' : List Note}

theorem empty : Tells {} [] where
  updates program := Counter.count_empty program
  passes key := Counter.count_empty key
  failures := rfl
  updates_proper := .empty
  passes_proper := .empty
  timed program := by simp

/-- What one more note adds. -/
theorem record (h : m.Tells notes) (note : Note) : (m.record note).Tells (notes ++ [note]) := by
  have hadd (c : Counter) (counted : String → Note → Bool) (name : String)
      (hcounted : ∀ key, counted key note = (name == key))
      (hc : ∀ key, c.count key = notes.countP (counted key)) (key : String) :
      (c.add name 1).count key = (notes ++ [note]).countP (counted key) := by
    rw [Counter.count_add, List.countP_append, hc, List.countP_singleton, hcounted]
    simp only [beq_iff_eq]
  have hkeep (counted : Note → Bool) (hcounted : counted note = false) :
      (notes ++ [note]).countP counted = notes.countP counted := by
    simp [List.countP_append, hcounted]
  cases note with
  | update program nanoseconds =>
    refine ⟨hadd m.updates Note.isUpdate program (fun _ => rfl) h.updates, fun key => ?_, ?_,
      h.updates_proper.add program Nat.one_pos, h.passes_proper, fun p => ?_⟩
    · rw [hkeep _ rfl]
      exact h.passes key
    · rw [hkeep _ rfl]
      exact h.failures
    · change p ∈ m.averages.insert program _ ↔ p ∈ m.updates.insert program _
      rw [Std.ExtTreeMap.mem_insert, Std.ExtTreeMap.mem_insert, h.timed]
  | pass key =>
    refine ⟨fun p => ?_, hadd m.passes Note.isPass key (fun _ => rfl) h.passes, ?_,
      h.updates_proper, h.passes_proper.add key Nat.one_pos, h.timed⟩
    · rw [hkeep _ rfl]
      exact h.updates p
    · rw [hkeep _ rfl]
      exact h.failures
  | failure =>
    refine ⟨fun p => ?_, fun key => ?_, ?_, h.updates_proper, h.passes_proper, h.timed⟩
    · rw [hkeep _ rfl]
      exact h.updates p
    · rw [hkeep _ rfl]
      exact h.passes key
    · rw [List.countP_append, ← h.failures]
      rfl

/-- A worker's metrics tell what it has noted. -/
theorem recorded (notes : List Note) : (Metrics.recorded notes).Tells notes := by
  -- The induction is on what is still to be noted, and so it starts from metrics that tell
  -- something already.
  have hnoted {m : Metrics} {before : List Note} (h : m.Tells before) (notes : List Note) :
      (notes.foldl Metrics.record m).Tells (before ++ notes) := by
    induction notes generalizing m before with
    | nil => simpa using h
    | cons note notes ih => simpa using ih (h.record note)
  exact hnoted .empty notes

theorem merge (h : m.Tells notes) (h' : other.Tells notes') :
    (m.merge other).Tells (notes ++ notes') where
  updates program := by
    rw [updates_merge, Counter.count_merge, List.countP_append, h.updates, h'.updates]
  passes key := by
    rw [List.countP_append, ← h.passes, ← h'.passes]
    exact Counter.count_merge ..
  failures := by
    rw [List.countP_append, ← h.failures, ← h'.failures]
    rfl
  updates_proper := updates_merge m other ▸ h.updates_proper.merge h'.updates_proper
  passes_proper := h.passes_proper.merge h'.passes_proper
  -- An average comes with a name in the table of `other`: there must be no name in it that has not
  -- been counted.
  timed program := by
    rw [mem_averages_merge, h.timed, updates_merge, h.updates_proper.mem_iff,
      h'.updates_proper.mem_iff, (h.updates_proper.merge h'.updates_proper).mem_iff,
      Counter.count_merge]
    omega

/-- Merged metrics tell what any of the workers has noted. -/
theorem mergeAll (dealt : List (List Note)) :
    (Metrics.mergeAll (dealt.map Metrics.recorded)).Tells dealt.flatten := by
  have hmerged {m : Metrics} {before : List Note} (h : m.Tells before) (dealt : List (List Note)) :
      ((dealt.map Metrics.recorded).foldl Metrics.merge m).Tells (before ++ dealt.flatten) := by
    induction dealt generalizing m before with
    | nil => simpa using h
    | cons notes dealt ih => simpa using ih (h.merge (recorded notes))
  exact hmerged .empty dealt

/-- The order of the notes does not show in the counts. -/
theorem perm (h : m.Tells notes) (hperm : notes.Perm notes') : m.Tells notes' where
  updates program := (h.updates program).trans (hperm.countP_eq _)
  passes key := (h.passes key).trans (hperm.countP_eq _)
  failures := h.failures.trans (hperm.countP_eq _)
  updates_proper := h.updates_proper
  passes_proper := h.passes_proper
  timed := h.timed

/-- Metrics that tell the same have the same tables of counts. -/
theorem unique (h : m.Tells notes) (h' : other.Tells notes) :
    m.updates = other.updates ∧ m.passes = other.passes ∧ m.failures = other.failures :=
  ⟨h.updates_proper.ext h'.updates_proper fun program =>
    (h.updates program).trans (h'.updates program).symm,
    h.passes_proper.ext h'.passes_proper fun key => (h.passes key).trans (h'.passes key).symm,
    h.failures.trans h'.failures.symm⟩

end Tells

/-- Notes are dealt out to any number of workers, in any way and order, and the metrics of the
workers are merged in any order. The counts are those that one worker has who notes everything, and
those of the notes: updates by program, passes by aggregator, failures and the total of updates. The
programs with an average duration are those with a count. -/
theorem merging_loses_nothing {notes : List Note} {dealt : List (List Note)}
    (h : dealt.flatten.Perm notes) :
    let merged := mergeAll (dealt.map recorded)
    let whole := recorded notes
    merged.updates = whole.updates ∧ merged.passes = whole.passes ∧
      merged.failures = whole.failures ∧ merged.totalUpdates = whole.totalUpdates ∧
      (∀ program, program ∈ merged.averages ↔ program ∈ merged.updates) ∧
        (∀ program, merged.updates.count program = notes.countP (·.isUpdate program)) ∧
      (∀ key, merged.passes.count key = notes.countP (·.isPass key)) ∧
      merged.failures = notes.countP (·.isFailure) := by
  intro merged whole
  have hmerged : merged.Tells notes := (Tells.mergeAll dealt).perm h
  obtain ⟨hupdates, hpasses, hfailures⟩ := hmerged.unique (Tells.recorded notes)
  exact ⟨hupdates, hpasses, hfailures, totalUpdates_congr hupdates, hmerged.timed, hmerged.updates,
    hmerged.passes, hmerged.failures⟩

/-- Three workers, one of which has noted nothing; two have run the same program. -/
theorem merging_loses_nothing_shared :
    let notes : List Note := [.update "p" 100, .pass "k", .update "q" 5, .failure, .update "p" 200]
    let dealt : List (List Note) :=
      [[.update "p" 200, .failure], [], [.pass "k", .update "p" 100, .update "q" 5]]
    let merged := mergeAll (dealt.map recorded)
    dealt.flatten.Perm notes ∧ merged.updates = (recorded notes).updates ∧
      merged.updates.count "p" = 2 ∧ merged.passes.count "k" = 1 ∧ merged.failures = 1 := by
  intro notes dealt merged
  have hperm : dealt.flatten.Perm notes := by decide
  obtain ⟨hupdates, -, -, -, -, hcount, hpasses, hfailures⟩ := merging_loses_nothing hperm
  exact ⟨hperm, hupdates, hcount "p", hpasses "k", hfailures⟩

end Metrics

end VertexPrograms
