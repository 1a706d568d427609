import Mathlib.Data.List.Induction
import Mathlib.Data.List.Nodup
import Mathlib.Data.Nat.Basic
import Mathlib.Logic.Function.Basic
import Mathlib.Order.Basic
import Mathlib.Tactic.ByContra
import VertexPrograms.Proofs.Globals.Retention

/-!
# Publications at the same time

Routines that share a table of globals take turns, one call a turn. A publication takes two turns:
it looks whether its key is registered, and then it writes. Publications of values of one kind under
one key never spoil each other if the key is registered before they begin. If it is not, those that
have looked before the first of them writes all find it missing and register it, which only the
first of them can do: the others are refused.
-/

namespace VertexPrograms.Globals

/-! # Turns -/

/-- Makes the next call of a routine: what is left of the routine, and the table after the call. -/
def Routine.step {α : Type} : Routine α → Globals → Routine α × Globals
  | done result, g => (done result, g)
  | call c next, g => (next (g.perform c).1, (g.perform c).2)

/-- The result of a routine that has ended. -/
def Routine.result? {α : Type} : Routine α → Option α
  | done result => some result
  | call _ _ => none

/-- Routines that share a table. -/
@[ext]
structure Shared (ι α : Type) where
  table : Globals
  routine : ι → Routine α

namespace Shared

variable {ι α : Type} [DecidableEq ι]

/-- One of the routines makes its next call. -/
def turn (s : Shared ι α) (i : ι) : Shared ι α where
  table := ((s.routine i).step s.table).2
  routine := Function.update s.routine i ((s.routine i).step s.table).1

/-- The routines take turns. -/
def play (s : Shared ι α) (turns : List ι) : Shared ι α := turns.foldl turn s

/-- One turn makes the step of the routine whose turn it is. -/
theorem turn_self {s : Shared ι α} {i : ι} {r : Routine α} {g : Globals}
    (h : (s.routine i).step s.table = (r, g)) : s.turn i = ⟨g, Function.update s.routine i r⟩ := by
  rw [turn, h]

/-- The last turn comes after all others. -/
theorem play_concat (s : Shared ι α) (turns : List ι) (i : ι) :
    s.play (turns ++ [i]) = (s.play turns).turn i := by
  simp [play]

end Shared

/-! # A publication -/

/-- What is left of a publication when it has looked whether its key is registered. -/
def writing (key : String) (value : Value) (present : Bool) : Routine (Except Error Unit) :=
  .attempt (if present then .set key value else .insert key value false) fun _ => .done (.ok ())

/-- The second table differs from the first under one key at most, where it has a variable with some
value. -/
structure Holds (g : Globals) (key : String) (value : Value) (g' : Globals) : Prop where
  target : g'.entry key = .ok ⟨value, false⟩
  others : ∀ other, other ≠ key → g'.entry other = g.entry other

/-- Whether a key may be given values of a kind: it is free, or a variable that is null or of this
kind. -/
def Takes (g : Globals) (key : String) (kind : Kind) : Prop :=
  ∀ e, g.entry key = .ok e → e.constant = false ∧ (e.value.kind = .null ∨ e.value.kind = kind)

section Publication

variable {g g' : Globals} {key : String} {value : Value}

/-- A publication looks first whether its key is there. -/
theorem step_publish (g : Globals) (key : String) (value : Value) :
    (publish key value).step g = (writing key value (g.contains key), g) := rfl

/-- If the key was there, the value is set. -/
theorem step_writing_true (g : Globals) (key : String) (value : Value) :
    (writing key value true).step g =
      (.done (g.settle () (g.set key value)).1, (g.settle () (g.set key value)).2) := by
  rw [writing, if_pos rfl, Routine.attempt, Routine.step, perform]
  cases g.set key value <;> rfl

theorem step_writing_false (g : Globals) (key : String) (value : Value) :
    (writing key value false).step g =
      (.done (g.settle () (g.insert key value false)).1,
        (g.settle () (g.insert key value false)).2) := by
  rw [writing, if_neg Bool.false_ne_true, Routine.attempt, Routine.step, perform]
  cases g.insert key value false <;> rfl

theorem holds_put (g : Globals) (key : String) (value : Value) :
    Holds g key value (g.put key ⟨value, false⟩) :=
  ⟨entry_put_self .., fun other hother => by rw [entry_put, if_neg hother.symm]⟩

/-- What is written over what is held is held. -/
theorem Holds.trans {value' : Value} {g'' : Globals} (h : Holds g key value g')
    (h' : Holds g' key value' g'') : Holds g key value' g'' :=
  ⟨h'.target, fun other hother => (h'.others other hother).trans (h.others other hother)⟩

theorem Holds.contains (h : Holds g key value g') : g'.contains key = true :=
  contains_eq_true.mpr ⟨_, h.target⟩

/-- A key that is held takes values of its kind. -/
theorem Holds.takes (h : Holds g key value g') : g'.Takes key value.kind := by
  intro e he
  obtain rfl := Except.ok.inj (h.target.symm.trans he)
  exact ⟨rfl, .inr rfl⟩

/-- A publication that has found its key writes its value. -/
theorem step_set (hpresent : g.contains key = true) (htarget : g.Takes key value.kind) :
    ∃ g', (writing key value true).step g = (.done (.ok ()), g') ∧ Holds g key value g' := by
  obtain ⟨e, he⟩ := contains_eq_true.mp hpresent
  obtain ⟨hvariable, hkind⟩ := htarget e he
  have hset : g.set key value = .ok (g.put key ⟨value, false⟩) := by
    rw [set, update_of_ok he, if_neg (by simp [hvariable]), if_neg fun h =>
      h.2 (hkind.resolve_left h.1).symm,
      hvariable]
  exact ⟨_, by rw [step_writing_true, hset]; rfl, holds_put g key value⟩

/-- A publication that has not found its key registers it if it is still free. -/
theorem step_insert (hkey : key ≠ "") (habsent : g.contains key = false) :
    ∃ g', (writing key value false).step g = (.done (.ok ()), g') ∧ Holds g key value g' := by
  have hinsert : g.insert key value false = .ok (g.put key ⟨value, false⟩) := by
    rw [insert_eq, if_neg hkey, habsent]
    rfl
  exact ⟨_, by rw [step_writing_false, hinsert]; rfl, holds_put g key value⟩

/-- A publication that has not found its key is refused if the key has been registered since. -/
theorem step_insert_of_contains (hkey : key ≠ "") (hpresent : g.contains key = true) :
    (writing key value false).step g = (.done (.error (.duplicateGlobal key)), g) := by
  have hinsert : g.insert key value false = .error (.duplicateGlobal key) := by
    rw [insert_eq, if_neg hkey, hpresent]
    rfl
  rw [step_writing_false, hinsert]
  rfl

end Publication

/-! # Publications of values of one kind -/

section Publications

variable {ι : Type} [DecidableEq ι] {g : Globals} {key : String} {kind : Kind} {values : ι → Value}

/-- Publications that are about to begin. -/
def publications (g : Globals) (key : String) (values : ι → Value) : Shared ι (Except Error Unit) :=
  ⟨g, fun i => publish key (values i)⟩

/-- Whether a publication finds its key, if `early` have looked before the first of them writes. -/
def finds (g : Globals) (key : String) (early : List ι) (j : ι) : Bool :=
  g.contains key || decide (j ∉ early)

/-- What a publication answers, if `early` have looked before the first of them, which is `i`,
writes. -/
def answer (g : Globals) (key : String) (early : List ι) (i j : ι) : Except Error Unit :=
  if g.contains key = false ∧ j ∈ early ∧ j ≠ i then .error (.duplicateGlobal key) else .ok ()

/-- What is left of a publication after so many turns of its own. -/
def remaining (g : Globals) (key : String) (values : ι → Value) (early : List ι) (i j : ι) :
    Nat → Routine (Except Error Unit)
  | 0 => publish key (values j)
  | 1 => writing key (values j) (finds g key early j)
  | _ + 2 => .done (answer g key early i j)

/-- Where publications are after some turns, if the first of them has written. -/
structure Placed (g : Globals) (key : String) (values : ι → Value) (early : List ι) (i : ι)
    (turns : List ι) (s : Shared ι (Except Error Unit)) : Prop where
  routine (j : ι) : s.routine j = remaining g key values early i j (turns.count j)
  table : ∃ j, answer g key early i j = .ok () ∧ 2 ≤ turns.count j ∧ Holds g key (values j) s.table

/-- Publications that have only looked have changed nothing. -/
theorem play_early {early : List ι} (h : early.Nodup) :
    (publications g key values).play early =
      ⟨g, fun j => if j ∈ early then writing key (values j) (g.contains key)
        else publish key (values j)⟩ := by
  induction early using List.reverseRecOn with
  | nil => rfl
  | append_singleton early i ih =>
    obtain ⟨hearly, -, hdisjoint⟩ := List.nodup_append.mp h
    have hi : i ∉ early := fun hmem => hdisjoint i hmem i (List.mem_singleton_self i) rfl
    rw [Shared.play_concat, ih hearly]
    ext1
    · simp [Shared.turn, hi, step_publish]
    · funext j
      by_cases hj : j = i
      · subst hj
        simp [Shared.turn, hi, step_publish]
      · simp [Shared.turn, hj]

/-- Who finds the key succeeds. -/
theorem answer_of_finds {early : List ι} {i j : ι} (h : finds g key early j = true) :
    answer g key early i j = .ok () := by
  rw [answer, if_neg]
  rintro ⟨habsent, hearly, -⟩
  simp [finds, habsent, hearly] at h

/-- The first one to write succeeds. -/
theorem answer_self (early : List ι) (i : ι) : answer g key early i i = .ok () :=
  if_neg fun h => h.2.2 rfl

/-- Who has looked too early, and is not the first one to write, is refused. -/
theorem answer_of_not_finds {early : List ι} {i j : ι} (h : finds g key early j = false)
    (hj : j ≠ i) : answer g key early i j = .error (.duplicateGlobal key) := by
  have h : g.contains key = false ∧ j ∈ early := by simpa [finds] using h
  exact if_pos ⟨h.1, h.2, hj⟩

/-- The first publication to write succeeds, since it has looked at the table that there still is.
-/
theorem placed_first {early : List ι} {i : ι} (hkey : key ≠ "") (hkind : (values i).kind = kind)
    (htarget : g.Takes key kind) (hearly : early.Nodup) (hi : i ∈ early) :
    Placed g key values early i (early ++ [i])
    ((publications g key values).play (early ++ [i])) := by
  obtain ⟨g', hstep, hholds⟩ : ∃ g',
      (writing key (values i) (g.contains key)).step g = (.done (.ok ()), g') ∧
      Holds g key (values i) g' := by
    cases hpresent : g.contains key with
    | true => exact step_set hpresent (hkind ▸ htarget)
    | false => exact step_insert hkey hpresent
  have htwo : (early ++ [i]).count i = 2 := by simp [hearly.count, hi]
  have hturn : (publications g key values).play (early ++ [i]) = ⟨g', Function.update
      (fun j => if j ∈ early then writing key (values j) (g.contains key)
        else publish key (values j)) i
      (.done (.ok ()))⟩ := by
    rw [Shared.play_concat, play_early hearly, Shared.turn_self]
    dsimp only
    rw [if_pos hi, hstep]
  rw [hturn]
  refine ⟨fun j => ?_, i, answer_self early i, htwo.ge, hholds⟩
  dsimp only
  by_cases hj : j = i
  · subst hj
    rw [Function.update_self, htwo, remaining, answer_self]
  · have hcount : (early ++ [i]).count j = early.count j := by simp [Ne.symm hj]
    rw [Function.update_of_ne hj, hcount, hearly.count]
    by_cases hmem : j ∈ early <;> simp [hmem, remaining, finds]

/-- One more turn, given what is left of the publication whose turn it is, and the table after it.
-/
private theorem Placed.concat {early turns : List ι} {i j : ι} {s : Shared ι (Except Error Unit)}
    {r : Routine (Except Error Unit)} {g' : Globals} (h : Placed g key values early i turns s)
    (hstep : (s.routine j).step s.table = (r, g'))
    (hremaining : r = remaining g key values early i j (turns.count j + 1))
    (htable : ∃ k, answer g key early i k = .ok () ∧ 2 ≤ (turns ++ [j]).count k ∧
      Holds g key (values k) g') :
    Placed g key values early i (turns ++ [j]) (s.turn j) := by
  rw [Shared.turn_self hstep]
  refine ⟨fun k => ?_, htable⟩
  dsimp only
  by_cases hk : k = j
  · subst hk
    have hcount : (turns ++ [k]).count k = turns.count k + 1 := by simp
    rw [Function.update_self, hcount, hremaining]
  · have hcount : (turns ++ [j]).count k = turns.count k := by simp [Ne.symm hk]
    rw [Function.update_of_ne hk, hcount, h.routine]

/-- One more turn, of any publication, leaves them where they are to be. -/
theorem Placed.turn {early turns : List ι} {i : ι} {s : Shared ι (Except Error Unit)}
    (h : Placed g key values early i turns s) (hkey : key ≠ "")
    (hkind : ∀ j, (values j).kind = kind) (hearly : ∀ j ∈ early, j ∈ turns) (hi : 2 ≤ turns.count i)
    (j : ι) : Placed g key values early i (turns ++ [j]) (s.turn j) := by
  obtain ⟨k, hk, htwo, hholds⟩ := h.table
  have hkept : ∃ k, answer g key early i k = .ok () ∧ 2 ≤ (turns ++ [j]).count k ∧
      Holds g key (values k) s.table :=
    ⟨k, hk, htwo.trans (by simp), hholds⟩
  have hroutine := h.routine j
  rcases hn : turns.count j with _ | _ | n
  · -- It looks now, and finds the key.
    have hfinds : finds g key early j = true := by
      have hj : j ∉ early := fun hmem => List.count_eq_zero.mp hn (hearly j hmem)
      simp [finds, hj]
    have hstep : (s.routine j).step s.table = (writing key (values j) true, s.table) := by
      rw [hroutine, hn, remaining, step_publish, hholds.contains]
    exact h.concat hstep (by rw [hn, remaining, hfinds]) hkept
  · cases hfinds : finds g key early j with
    | true =>
      have hanswer := answer_of_finds (i := i) hfinds
      have htakes : s.table.Takes key (values j).kind :=
        (hkind k).trans (hkind j).symm ▸ hholds.takes
      obtain ⟨g', hset, hholds'⟩ := step_set hholds.contains htakes
      have hstep : (s.routine j).step s.table = (.done (.ok ()), g') := by
        rw [hroutine, hn, remaining, hfinds, hset]
      have hcount : 2 ≤ (turns ++ [j]).count j := by simp [hn]
      exact h.concat hstep (by rw [hn, remaining, hanswer]) ⟨j, hanswer, hcount,
        hholds.trans hholds'⟩
    | false =>
      have hj : j ≠ i := by
        rintro rfl
        omega
      have hstep :
          (s.routine j).step s.table = (.done (.error (.duplicateGlobal key)), s.table) := by
        rw [hroutine, hn, remaining, hfinds, step_insert_of_contains hkey hholds.contains]
      exact h.concat hstep (by rw [hn, remaining, answer_of_not_finds hfinds hj]) hkept
  · -- It has ended, and its turn is idle.
    have hstep : (s.routine j).step s.table = (.done (answer g key early i j), s.table) := by
      rw [hroutine, hn]
      rfl
    exact h.concat hstep (by rw [hn, remaining]) hkept

/-- After the first write the table holds its key, and whoever has not looked yet finds it. -/
theorem placed_play {early : List ι} {i : ι} (hkey : key ≠ "") (hkind : ∀ j, (values j).kind = kind)
    (htarget : g.Takes key kind) (hearly : early.Nodup) (hi : i ∈ early) (late : List ι) :
    Placed g key values early i (early ++ [i] ++ late)
    ((publications g key values).play (early ++ [i] ++ late)) := by
  induction late using List.reverseRecOn with
  | nil =>
    rw [List.append_nil]
    exact placed_first hkey (hkind i) htarget hearly hi
  | append_singleton late j ih =>
    have htwo : 2 ≤ (early ++ [i] ++ late).count i := by
      have hone : 0 < early.count i := List.count_pos_iff.mpr hi
      simp
      omega
    rw [← List.append_assoc, Shared.play_concat]
    exact ih.turn hkey hkind (fun j hj => by simp [hj]) htwo j

/-- Turns that are not all of different routines begin with some that are, and then a first one
comes again. -/
theorem exists_first_again {turns : List ι} (h : ¬turns.Nodup) :
    ∃ early i late, turns = early ++ [i] ++ late ∧ early.Nodup ∧ i ∈ early := by
  induction turns using List.reverseRecOn with
  | nil => exact absurd List.nodup_nil h
  | append_singleton turns j ih =>
    by_cases hturns : turns.Nodup
    · have hj : j ∈ turns := by
        by_contra hj
        exact h (List.nodup_append.mpr ⟨hturns, List.nodup_singleton j, by grind⟩)
      exact ⟨turns, j, [], by simp, hturns, hj⟩
    · obtain ⟨early, i, late, rfl, hearly, hi⟩ := ih hturns
      exact ⟨early, i, late ++ [j], by simp, hearly, hi⟩

/-- Whatever the order of their turns, publications of values of one kind under a key that may be
given them end, one of those that succeed has given the key its value, and no other entry has
changed. They all succeed if the key is there from the beginning. Otherwise those that looked before
the first of them wrote are refused, but for that first one. -/
theorem publications_play [Nonempty ι] {turns : List ι} (hkey : key ≠ "")
    (hkind : ∀ j, (values j).kind = kind) (htarget : g.Takes key kind)
    (hturns : ∀ j, 2 ≤ turns.count j) : ∃ early i late, turns = early ++ [i] ++ late ∧ early.Nodup ∧
    i ∈ early ∧
      (∀ j, (((publications g key values).play turns).routine j).result? =
        some (if g.contains key = false ∧ j ∈ early ∧ j ≠ i then .error (.duplicateGlobal key)
          else .ok ())) ∧
      (∃ j, (((publications g key values).play turns).routine j).result? = some (.ok ()) ∧
        ((publications g key values).play turns).table.entry key = .ok ⟨values j, false⟩) ∧
      ∀ other, other ≠ key → ((publications g key values).play turns).table.entry other =
        g.entry other := by
  have hagain : ¬turns.Nodup := by
    intro hnodup
    have hone := List.nodup_iff_count_le_one.mp hnodup (Classical.arbitrary ι)
    have htwo := hturns (Classical.arbitrary ι)
    omega
  obtain ⟨early, i, late, rfl, hearly, hi⟩ := exists_first_again hagain
  have hplaced := placed_play hkey hkind htarget hearly hi late
  have hended (j : ι) :
      (((publications g key values).play (early ++ [i] ++ late)).routine j).result? =
        some (answer g key early i j) := by
    obtain ⟨n, hn⟩ := Nat.exists_eq_add_of_le' (hturns j)
    rw [hplaced.routine, hn]
    rfl
  obtain ⟨j, hj, -, hholds⟩ := hplaced.table
  exact ⟨early, i, late, rfl, hearly, hi, hended, ⟨j, (hended j).trans (congrArg some hj),
    hholds.target⟩, hholds.others⟩

theorem takes_empty (key : String) (kind : Kind) : ({} : Globals).Takes key kind := by
  intro e he
  cases he

/-- Two publications under a free key, each of which looks before the other writes. -/
theorem publications_play_two :
    let values : Bool → Value := fun second => .integer (if second then 2 else 1)
    let turns := [false, true, false, true]
    let s := (publications {} "t" values).play turns
    "t" ≠ "" ∧ (∀ j, (values j).kind = .integer) ∧ ({} : Globals).Takes "t" .integer ∧
      (∀ j, 2 ≤ turns.count j) ∧ ∃ early i late, turns = early ++ [i] ++ late ∧ early.Nodup ∧
        i ∈ early ∧ (∀ j, (s.routine j).result? =
          some (if ({} : Globals).contains "t" = false ∧ j ∈ early ∧ j ≠ i then
            .error (.duplicateGlobal "t")
            else .ok ())) ∧
        (∃ j, (s.routine j).result? = some (.ok ()) ∧ s.table.entry "t" = .ok ⟨values j, false⟩) ∧
        ∀ other, other ≠ "t" → s.table.entry other = ({} : Globals).entry other := by
  intro values turns s
  have hkind (j : Bool) : (values j).kind = .integer := rfl
  have hturns : ∀ j, 2 ≤ turns.count j := by decide
  exact ⟨by decide, hkind, takes_empty _ _, hturns, publications_play (by
    decide) hkind (takes_empty _ _) hturns⟩

/-- So it is not true that publications under a key that may be given their values all succeed. -/
theorem not_forall_publications_succeed :
    ¬∀ (g : Globals) (key : String) (kind : Kind) (values : Bool → Value) (turns : List Bool),
      key ≠ "" → (∀ i, (values i).kind = kind) → g.Takes key kind → (∀ i, turns.count i = 2) →
      ∀ i, (((publications g key values).play turns).routine i).result? = some (.ok ()) := by
  intro hall
  have hok := hall {} "t" .integer (fun i => .integer (if i then 2 else 1)) [false, true, false,
    true] (by decide) (fun _ => rfl) (takes_empty _ _) (by decide) true
  have hrefused : (((publications {} "t" fun i => .integer (if i then 2 else 1)).play
      [false, true, false, true]).routine true).result? = some (.error (.duplicateGlobal "t")) :=
        rfl
  rw [hrefused] at hok
  cases hok

end Publications

end VertexPrograms.Globals
