import Mathlib.Algebra.BigOperators.Group.Finset.Basic
import VertexPrograms.Proofs.Aggregation.Boundaries
import VertexPrograms.Proofs.Engine.Team

/-!
# Boundaries in a run of several workers

The updates of a run get their numbers one after another, but the workers come to the passes in any
order and run them side by side. Still no boundary is passed over and none is counted twice: between
the moment at which an update gets its number and the moment at which a registration due at it has
run, exactly one worker has that pass before it.
-/

namespace VertexPrograms

variable {V E M P : Type}

/-- How many passes of a registration, which is at the given position, a worker has before it. -/
def Duty.owes (a : Registration V E) (i : Nat) : Duty V E M P → Nat
  | .counted _ _ count | .completed _ _ count => (a.isDue count).toNat
  | .passing count position _ => if position ≤ i then (a.isDue count).toNat else 0
  | .asking | .locking _ _ | .updating _ _ | .publishing _ _ _ | .recording _ | .gone => 0

namespace Team

variable {r r' : Team V E M P} {start : Registry V E} {workers w : Nat} {e : Engine V E M P}
  {d : Duty V E M P}

/-- A step in which nobody is cut off: only those leave that would ask for a task, or are never
started. What is left out is the panic of user code that nothing catches, when a program is asked
for its name or its level or an error for its text. -/
structure Works (r r' : Team V E M P) : Prop where
  step : Step r r'
  stay : ∀ w, r'.duty w = .gone → r.duty w = .asking ∨ r.duty w = .gone

/-- A worker that goes on is not cut off. -/
theorem Works.act (h : Step r (r.act w e d)) (hd : d = .gone → r.duty w = .asking) :
    Works r (r.act w e d) where
  step := h
  stay u hu := by
    by_cases huw : u = w
    · subst huw
      exact .inl (hd (by simpa [Team.act] using hu))
    · exact .inr (by simpa [Team.act, huw] using hu)

/-- Each registration has run at every boundary that the run has come to, but for the passes that
workers have still before them. -/
structure Fired (start : Registry V E) (workers : Nat) (r : Team V E M P) : Prop where
  absent : ∀ w, workers ≤ w → r.duty w = .gone
  length : r.engine.registry.entries.length = start.entries.length
  fired : ∀ i a, start.entries[i]? = some a → ∃ n, r.engine.registry.entries[i]? = some (a.ran n) ∧
    n + ∑ u ∈ Finset.range workers, (r.duty u).owes a i = r.engine.updateCount / a.interval

/-- What a sum over the workers becomes when one of them changes. -/
theorem sum_of_eq_off {f g : Nat → Nat} (hw : w < workers) (hothers : ∀ u, u ≠ w → f u = g u) :
    ∑ u ∈ Finset.range workers, f u + g w = ∑ u ∈ Finset.range workers, g u + f w := by
  have hmem : w ∈ Finset.range workers := Finset.mem_range.mpr hw
  have hrest : ∑ u ∈ (Finset.range workers).erase w, f u =
      ∑ u ∈ (Finset.range workers).erase w, g u :=
    Finset.sum_congr rfl fun u hu => hothers u (Finset.ne_of_mem_erase hu)
  rw [← Finset.add_sum_erase _ f hmem, ← Finset.add_sum_erase _ g hmem, hrest]
  omega

/-- What a sum over the workers becomes when one of them goes on to something else. -/
private theorem sum_act (f : Duty V E M P → Nat) (hw : w < workers) (r : Team V E M P)
    (e : Engine V E M P) (d : Duty V E M P) : ∑ u ∈ Finset.range workers,
    f ((r.act w e d).duty u) + f (r.duty w) =
      ∑ u ∈ Finset.range workers, f (r.duty u) + f d := by
  have hself : (r.act w e d).duty w = d := by simp [act]
  have hsum :=
    sum_of_eq_off (f := fun u => f ((r.act w e d).duty u)) (g := fun u => f (r.duty u)) hw
    fun u hu => by simp [act, hu]
  rwa [hself] at hsum

/-- Whoever has left does not come back. -/
theorem Step.gone (h : Step r r') (hw : r.duty w = .gone) : r'.duty w = .gone := by
  have hact {u : Nat} {e : Engine V E M P} {d : Duty V E M P} (hu : r.duty u ≠ .gone) :
      (r.act u e d).duty w = .gone := by
    have hne : w ≠ u := by
      rintro rfl
      exact hu hw
    simp [act, hne, hw]
  cases h with
  | aborted | measured => exact hw
  | lost =>
    simp only [act]
    split
    · rfl
    · exact hw
  | took hu | waited hu | finished hu | locked hu | entered hu | called hu | released hu
  | pushed hu | counted hu
  | completed hu | reported hu | succeeded hu | passedOver hu | passed hu | allPassed hu
  | recorded hu | returned hu =>
    exact hact (by simp [hu])

namespace Fired

/-- Whoever has something to do is one of the workers. -/
theorem lt_of_duty (h : Fired start workers r) (hw : r.duty w ≠ .gone) : w < workers := by
  by_contra hge
  exact hw (h.absent w (Nat.le_of_not_lt hge))

/-- Who has no number among the workers has left, whatever a worker does. -/
private theorem absent_act (h : Fired start workers r) (hw : w < workers) {u : Nat}
    (hu : workers ≤ u) : (r.act w e d).duty u = .gone := by
  have hne : u ≠ w := by omega
  simp [act, hne, h.absent u hu]

/-- A worker goes on to something with the same passes before it. -/
private theorem act (h : Fired start workers r) (hw : r.duty w ≠ .gone)
    (hregistry : e.registry = r.engine.registry) (hcount : e.updateCount = r.engine.updateCount)
    (howes : ∀ i a, start.entries[i]? = some a → d.owes a i = (r.duty w).owes a i) :
    Fired start workers (r.act w e d) where
  absent u hu := h.absent_act (h.lt_of_duty hw) hu
  length := (congrArg (·.entries.length) hregistry).trans h.length
  fired := by
    intro i a ha
    obtain ⟨n, hn, hsum⟩ := h.fired i a ha
    have hact := sum_act (·.owes a i) (h.lt_of_duty hw) r e d
    have howes := howes i a ha
    refine ⟨n, ?_, ?_⟩
    · change e.registry.entries[i]? = _
      rw [hregistry, hn]
    · change n + _ = e.updateCount / a.interval
      rw [hcount, ← hsum]
      omega

/-- An update gets the next number, and whoever did it has the passes before it that are due. -/
private theorem counted (h : Fired start workers r) {t : Task P} {fault : Option Fault}
    (hw : r.duty w = .publishing t fault []) :
    Fired start workers (r.act w { r.engine with updateCount := r.engine.updateCount + 1 }
      (.counted t fault (r.engine.updateCount + 1))) := by
  have hlt : w < workers := h.lt_of_duty (by rw [hw]; nofun)
  refine ⟨fun u hu => h.absent_act hlt hu, h.length, fun i a ha => ?_⟩
  obtain ⟨n, hn, hsum⟩ := h.fired i a ha
  have hact := sum_act (·.owes a i) hlt r { r.engine with updateCount := r.engine.updateCount + 1 }
    (.counted t fault (r.engine.updateCount + 1))
  have hbefore : (r.duty w).owes a i = 0 := hw ▸ rfl
  have hafter : (Duty.counted t fault (r.engine.updateCount + 1) : Duty V E M P).owes a i =
      (a.isDue (r.engine.updateCount + 1)).toNat := rfl
  refine ⟨n, hn, ?_⟩
  change n + _ = (r.engine.updateCount + 1) / a.interval
  rw [a.div_succ, ← hsum]
  omega

/-- A pass runs, and whoever ran it no longer has it before him. -/
private theorem passed (h : Fired start workers r) {count p : Nat} {fs fs' : List Failure}
    {a : Registration V E} (hw : r.duty w = .passing count p fs)
    (ha : r.engine.registry.entries[p]? = some a) (hdue : a.isDue count = true)
    (globals : Globals) : Fired start workers (r.act w
      { r.engine with
        registry := ⟨r.engine.registry.entries.set p { a with runs := a.runs + 1 }⟩
        globals }
      (.passing count (p + 1) fs')) := by
  have hlt : w < workers := h.lt_of_duty (by rw [hw]; nofun)
  refine ⟨fun u hu => h.absent_act hlt hu, List.length_set.trans h.length, fun i b hb => ?_⟩
  obtain ⟨n, hn, hsum⟩ := h.fired i b hb
  have hact := sum_act (·.owes b i) hlt r
    { r.engine with
      registry := ⟨r.engine.registry.entries.set p { a with runs := a.runs + 1 }⟩
      globals } (.passing count (p + 1) fs')
  have hbefore : (r.duty w).owes b i = if p ≤ i then (b.isDue count).toNat else 0 := hw ▸ rfl
  have hafter : (Duty.passing count (p + 1) fs' : Duty V E M P).owes b i =
      if p + 1 ≤ i then (b.isDue count).toNat else 0 := rfl
  by_cases hi : p = i
  · subst hi
    obtain rfl : a = b.ran n := Option.some.inj (ha.symm.trans hn)
    refine ⟨n + 1, ?_, ?_⟩
    · change (r.engine.registry.entries.set p _)[p]? = _
      have hp : p < r.engine.registry.entries.length := (List.getElem?_eq_some_iff.mp ha).1
      rw [List.getElem?_set_self hp]
      rfl
    · rw [if_pos (Nat.le_refl p), ← b.isDue_ran n, hdue, Bool.toNat_true] at hbefore
      rw [if_neg (Nat.not_succ_le_self p)] at hafter
      change n + 1 + _ = r.engine.updateCount / b.interval
      omega
  · refine ⟨n, ?_, ?_⟩
    · change (r.engine.registry.entries.set p _)[i]? = _
      rw [List.getElem?_set_ne hi, hn]
    · have hiff : p + 1 ≤ i ↔ p ≤ i := by omega
      simp only [hiff] at hafter
      change n + _ = r.engine.updateCount / b.interval
      omega

/-- What one step preserves. -/
theorem step (h : Fired start workers r) (hworks : Works r r') : Fired start workers r' := by
  cases hworks.step with
  | took hw | waited hw | finished hw | locked hw | entered hw | called hw | released hw
  | pushed hw | completed hw | recorded hw | returned hw =>
    exact h.act (by rw [hw]; nofun) rfl rfl fun i a _ => hw ▸ rfl
  | counted hw => exact h.counted hw
  | reported hw | succeeded hw =>
    exact h.act (by rw [hw]; nofun) rfl rfl fun i a _ => by rw [hw]; simp [Duty.owes]
  | @passedOver w count p fs a hw ha hdue =>
    refine h.act (by rw [hw]; nofun) rfl rfl fun i b hb => ?_
    rw [hw]
    simp only [Duty.owes]
    by_cases hi : p = i
    · subst hi
      obtain ⟨n, hn, -⟩ := h.fired p b hb
      obtain rfl : a = b.ran n := Option.some.inj (ha.symm.trans hn)
      rw [Registration.isDue_ran] at hdue
      simp [hdue]
    · have hiff : p + 1 ≤ i ↔ p ≤ i := by omega
      simp only [hiff]
  | passed hw ha hdue globals fault => exact h.passed hw ha hdue globals
  | @allPassed w count p fs hw hp =>
    refine h.act (by rw [hw]; nofun) rfl rfl fun i b hb => ?_
    have hi : i < start.entries.length := (List.getElem?_eq_some_iff.mp hb).1
    have hlast : start.entries.length ≤ p := h.length ▸ List.getElem?_eq_none_iff.mp hp
    rw [hw]
    simp only [Duty.owes]
    rw [if_neg (by omega)]
  | aborted => exact ⟨h.absent, h.length, h.fired⟩
  | @lost w =>
    rcases hworks.stay w (by simp [Team.act]) with hw | hw
    · exact h.act (by rw [hw]; nofun) rfl rfl fun i a _ => by rw [hw]; rfl
    · have hsame : r.act w r.engine .gone = r := by
        simp only [Team.act]
        congr
        funext u
        split
        · rename_i hu
          rw [hu, hw]
        · rfl
      rwa [hsame]
  | measured metrics => exact ⟨h.absent, h.length, h.fired⟩

/-- When everybody has left, each registration has run at every boundary. -/
theorem entries_of_over (h : Fired start workers r) (hover : r.Over) :
    r.engine.registry.entries = start.entries.map fun a =>
      a.ran (r.engine.updateCount / a.interval) := by
  refine List.ext_getElem? fun i => ?_
  rw [List.getElem?_map]
  cases ha : start.entries[i]? with
  | none =>
    rw [List.getElem?_eq_none_iff, ← h.length, ← List.getElem?_eq_none_iff] at ha
    exact ha
  | some a =>
    obtain ⟨n, hn, hsum⟩ := h.fired i a ha
    have hzero : ∑ u ∈ Finset.range workers, (r.duty u).owes a i = 0 :=
      Finset.sum_eq_zero fun u _ => by rw [hover u]; rfl
    rw [hn, Option.map_some, ← hsum, hzero, Nat.add_zero]

/-- At the beginning nothing has run. -/
theorem launch (host : Host) (workers : Nat) (e : Engine V E M P) :
    Fired e.registry workers (Team.launch host workers e) where
  absent w hw := by simp [Team.launch, Nat.not_lt_of_le hw]
  length := rfl
  fired := by
    intro i a ha
    have hzero : ∑ u ∈ Finset.range workers, ((Team.launch host workers e).duty u).owes a i = 0 :=
      Finset.sum_eq_zero fun u hu => by
        have hlt : u < workers := Finset.mem_range.mp hu
        simp [Team.launch, hlt, Duty.owes]
    refine ⟨0, ha, ?_⟩
    rw [hzero]
    exact (Nat.zero_div _).symm

/-- So it is whenever a run has come on without anybody being cut off. -/
theorem of_works {host : Host} (h : Relation.ReflTransGen Works (Team.launch host workers e) r) :
    Fired e.registry workers r := by
  induction h with
  | refl => exact .launch host workers e
  | tail _ hworks ih => exact ih.step hworks

end Fired

end Team

end VertexPrograms
