import Mathlib.Algebra.BigOperators.Group.Finset.Piecewise
import VertexPrograms.Proofs.Engine.Counters
import VertexPrograms.Proofs.Engine.Firing

/-!
# What the workers of a run note down

Each worker keeps metrics of its own, and nobody else reads them before all have left; then they are
merged. What a worker notes with a step is told by what it is doing. A pass is noted by the worker
that runs it, so that all passes of a registration are found in the merged metrics, whoever ran
them.
-/

namespace VertexPrograms

variable {V E M P : Type}

namespace Team

/-- The registration whose pass a worker runs next. -/
def pass? (r : Team V E M P) (w : Nat) : Option (Registration V E) :=
  match r.duty w with
  | .passing count position _ => r.engine.registry.entries[position]?.filter (·.isDue count)
  | _ => none

/-- What a worker notes when it gets on with what it is doing, given how long its update took. -/
def noted (r : Team V E M P) (w nanoseconds : Nat) (m : Metrics) : Metrics :=
  match r.duty w with
  | .counted t _ _ => m.recordUpdate (r.engine.programs t.program).name nanoseconds
  | .completed _ (some _) _ | .recording (_ :: _) => m.recordFailures 1
  | .passing _ _ _ => (r.pass? w).elim m fun a => m.recordPass a.key
  | _ => m

variable {r : Team V E M P} {w : Nat} {a : Registration V E}

/-- A step in which no pass runs notes none. -/
theorem passes_noted_of_none (h : r.pass? w = none) (nanoseconds : Nat) (m : Metrics) :
    (r.noted w nanoseconds m).passes = m.passes := by
  rw [noted, h]
  split <;> rfl

/-- A step in which a pass runs notes it. -/
theorem noted_of_some (h : r.pass? w = some a) (nanoseconds : Nat) (m : Metrics) :
    r.noted w nanoseconds m = m.recordPass a.key := by
  cases hw : r.duty w with
  | passing => rw [noted, h, hw]; rfl
  | _ => simp [pass?, hw] at h

end Team

/-- A team whose workers keep metrics. -/
structure Ledger (V E M P : Type) where
  team : Team V E M P
  /-- The metrics of each worker. -/
  own : Nat → Metrics
  /-- The metrics of the workers that were cut off, which are lost with them. -/
  dropped : Metrics := {}

namespace Ledger

/-- One atomic step, in which nobody is cut off, and what is noted of it. -/
structure Step (b b' : Ledger V E M P) : Prop where
  team : Team.Works b.team b'.team
  kept : ∀ w, b'.team.duty w = b.team.duty w → b'.own w = b.own w
  noted : ∀ w, b'.team.duty w ≠ b.team.duty w →
    ∃ nanoseconds, b'.own w = b.team.noted w nanoseconds (b.own w)
  dropped : b'.dropped = b.dropped

/-- One atomic step: nobody is cut off in it, or somebody is, in the middle of what he is doing. -/
inductive Turn (b : Ledger V E M P) : Ledger V E M P → Prop
  | step {b' : Ledger V E M P} (h : Step b b') : Turn b b'
  | cut {w : Nat} (hbusy : b.team.duty w ≠ .asking) (hthere : b.team.duty w ≠ .gone) :
      Turn b
        { team := b.team.act w b.team.engine .gone
          own := fun u => if u = w then {} else b.own u
          dropped := b.dropped.merge (b.own w) }

/-- Steps in a row, in which nobody is cut off. -/
abbrev Run : Ledger V E M P → Ledger V E M P → Prop := Relation.ReflTransGen Step

/-- Steps in a row. -/
abbrev Turns : Ledger V E M P → Ledger V E M P → Prop := Relation.ReflTransGen Turn

/-- A team that begins a run, with nothing noted. -/
def launch (host : Host) (workers : Nat) (e : Engine V E M P) : Ledger V E M P where
  team := .launch host workers e
  own _ := {}

/-- The metrics of the workers, merged one after another. -/
def merged (b : Ledger V E M P) (workers : Nat) : Metrics :=
  (List.range workers).foldl (fun m w => m.merge (b.own w)) {}

variable {b b' : Ledger V E M P} {workers : Nat} {start : Registry V E}

/-- The merged metrics have the passes of all workers. -/
theorem count_merged (b : Ledger V E M P) (workers : Nat) (key : String) :
    (b.merged workers).passes.count key = ∑ w ∈ Finset.range workers,
    (b.own w).passes.count key := by
  induction workers with
  | zero => exact Counter.count_empty key
  | succ workers ih =>
    rw [merged, List.range_succ, List.foldl_append, Finset.sum_range_succ, ← ih]
    exact Counter.count_merge ..

/-- A turn of the ledger is a step of the team. -/
theorem Turn.team (h : Turn b b') : Team.Step b.team b'.team := by
  cases h with
  | step hstep => exact hstep.team.step
  | cut => exact .lost

/-- A run that keeps metrics is a run. -/
theorem Turns.team (h : Turns b b') : Team.Run b.team b'.team :=
  h.lift Ledger.team fun _ _ hturn => hturn.team

/-- A run is a row of turns. -/
theorem Run.turns (h : Run b b') : Turns b b' := Relation.ReflTransGen.mono (fun _ _ => .step) _ _ h

/-- A run of the ledger is a run of the team. -/
theorem Run.team (h : Run b b') : Team.Run b.team b'.team := h.turns.team

/-- In a run of steps in which nobody is cut off, nobody is. -/
theorem Run.works (h : Run b b') : Relation.ReflTransGen Team.Works b.team b'.team :=
  h.lift Ledger.team fun _ _ hstep => hstep.team

/-- Unless somebody is cut off, no metrics are dropped. -/
theorem Run.dropped (h : Run b b') : b'.dropped = b.dropped := by
  induction h with
  | refl => rfl
  | tail _ hstep ih => exact hstep.dropped.trans ih

/-- Metrics can be kept of every run in which nobody is cut off. -/
theorem exists_run {r : Team V E M P} (h : Relation.ReflTransGen Team.Works b.team r) :
    ∃ own, Run b { team := r, own, dropped := b.dropped } := by
  classical
  induction h with
  | refl => exact ⟨b.own, .refl⟩
  | @tail r r' _ hstep ih =>
    obtain ⟨own, hrun⟩ := ih
    refine ⟨fun w => if r'.duty w = r.duty w then own w else r.noted w 0 (own w),
      hrun.tail ⟨hstep, ?_, ?_, rfl⟩⟩
    · intro w hsame
      exact if_pos hsame
    · intro w hother
      exact ⟨0, if_neg hother⟩

/-- A step of one worker is noted by nobody else. -/
private theorem Step.own_of_ne (h : Step b b') {w u : Nat} {e : Engine V E M P} {d : Duty V E M P}
    (hteam : b'.team = b.team.act w e d) (hu : u ≠ w) : b'.own u = b.own u := by
  refine h.kept u ?_
  rw [hteam]
  simp [Team.act, hu]

/-- A worker that has no pass to run notes none. -/
private theorem Step.passes_of_act (h : Step b b') {w : Nat} {e : Engine V E M P} {d : Duty V E M P}
    (hteam : b'.team = b.team.act w e d) (hw : b.team.pass? w = none) (u : Nat) :
    (b'.own u).passes = (b.own u).passes := by
  by_cases hu : u = w
  · subst hu
    by_cases hsame : b'.team.duty u = b.team.duty u
    · rw [h.kept u hsame]
    · obtain ⟨nanoseconds, hown⟩ := h.noted u hsame
      rw [hown, Team.passes_noted_of_none hw]
  · rw [h.own_of_ne hteam hu]

/-- A step runs no pass, and none is noted; or it runs one, and the worker that runs it notes it. -/
theorem Step.passes (h : Step b b') :
    b'.team.engine.registry = b.team.engine.registry ∧ (∀ w, (b'.own w).passes = (b.own w).passes) ∨
      ∃ (w i : Nat) (a : Registration V E), b.team.duty w ≠ .gone ∧
        b.team.engine.registry.entries[i]? = some a ∧
        b'.team.engine.registry.entries = b.team.engine.registry.entries.set i (a.ran 1) ∧
        (b'.own w).passes = (b.own w).passes.add a.key 1 ∧ ∀ u, u ≠ w → b'.own u = b.own u := by
  rcases b' with ⟨team', own'⟩
  cases h.team.step with
  | took hw | waited hw | finished hw | locked hw | entered hw | called hw | released hw
  | pushed hw | counted hw
  | completed hw | reported hw | succeeded hw | recorded hw | returned hw =>
    exact .inl ⟨rfl, h.passes_of_act rfl (by simp [Team.pass?, hw])⟩
  | passedOver hw ha hdue =>
    exact .inl ⟨rfl, h.passes_of_act rfl (by simp [Team.pass?, hw, ha, hdue])⟩
  | allPassed hw hi => exact .inl ⟨rfl, h.passes_of_act rfl (by simp [Team.pass?, hw, hi])⟩
  | @passed w count i fs a hw ha hdue globals fault =>
    have hpass : b.team.pass? w = some a := by simp [Team.pass?, hw, ha, hdue]
    obtain ⟨nanoseconds, hown⟩ := h.noted w (by simp [hw])
    rw [Team.noted_of_some hpass] at hown
    exact .inr ⟨w, i, a, by rw [hw]; nofun, ha, rfl, congrArg Metrics.passes hown, fun u hu =>
      h.own_of_ne rfl hu⟩
  | aborted | measured => exact .inl ⟨rfl, fun w => congrArg Metrics.passes (h.kept w rfl)⟩
  | @lost w =>
    refine .inl ⟨rfl, h.passes_of_act rfl ?_⟩
    rcases h.team.stay w (by simp) with hw | hw <;> simp [Team.pass?, hw]

/-- Each pass that has run is noted by the worker that ran it, or has been, if he was cut off. -/
structure Tallied (start : Registry V E) (workers : Nat) (b : Ledger V E M P) : Prop where
  absent : ∀ w, workers ≤ w → b.team.duty w = .gone
  length : b.team.engine.registry.entries.length = start.entries.length
  noted : ∀ (i : Nat) (a : Registration V E), start.entries[i]? = some a → ∃ n,
    b.team.engine.registry.entries[i]? = some (a.ran n) ∧
    ∑ w ∈ Finset.range workers, (b.own w).passes.count a.key + b.dropped.passes.count a.key = n

namespace Tallied

/-- Only workers with a number below that of the workers have something to do. -/
private theorem lt_of_duty (h : Tallied start workers b) {w : Nat} (hw : b.team.duty w ≠ .gone) :
    w < workers := by
  by_contra hge
  exact hw (h.absent w (Nat.le_of_not_lt hge))

/-- The registrations that are there are those of the start, which have run. -/
theorem of_getElem? (h : Tallied start workers b) {i : Nat} {c : Registration V E}
    (hc : b.team.engine.registry.entries[i]? = some c) :
    ∃ a n, start.entries[i]? = some a ∧ c = a.ran n ∧
      ∑ w ∈ Finset.range workers, (b.own w).passes.count a.key + b.dropped.passes.count
        a.key = n := by
  have hi : i < start.entries.length := h.length ▸ (List.getElem?_eq_some_iff.mp hc).1
  obtain ⟨n, hn, hsum⟩ := h.noted i _ (List.getElem?_eq_getElem hi)
  exact ⟨_, n, List.getElem?_eq_getElem hi, Option.some.inj (hc.symm.trans hn), hsum⟩

/-- A pass is noted, under its key and no other. -/
private theorem passed (hkeys : start.keys.Nodup) (h : Tallied start workers b) (hstep : Step b b')
    {w i : Nat} {c : Registration V E} (hw : b.team.duty w ≠ .gone)
    (hc : b.team.engine.registry.entries[i]? = some c)
    (hentries : b'.team.engine.registry.entries = b.team.engine.registry.entries.set i (c.ran 1))
    (hnoted : (b'.own w).passes = (b.own w).passes.add c.key 1)
    (hothers : ∀ u, u ≠ w → b'.own u = b.own u) : Tallied start workers b' := by
  obtain ⟨a, n, ha, rfl, hsum⟩ := h.of_getElem? hc
  have hi : i < b.team.engine.registry.entries.length := (List.getElem?_eq_some_iff.mp hc).1
  refine ⟨fun u hu => hstep.team.step.gone (h.absent u hu), ?_, fun j d hd => ?_⟩
  · rw [hentries, List.length_set, h.length]
  have hcount := Team.sum_of_eq_off (f := fun u => (b'.own u).passes.count d.key)
    (g := fun u => (b.own u).passes.count d.key) (h.lt_of_duty hw) fun u hu => by rw [hothers u hu]
  rw [hnoted, Counter.count_add, Registration.ran_key] at hcount
  rw [hentries, hstep.dropped]
  by_cases hj : i = j
  · subst hj
    obtain rfl : a = d := Option.some.inj (ha.symm.trans hd)
    rw [if_pos rfl] at hcount
    refine ⟨n + 1, ?_, by omega⟩
    rw [List.getElem?_set_self hi, Registration.ran_ran]
  · -- Another registration has another key, so that its passes are not among those of this one.
    have hne : a.key ≠ d.key := fun hkey => hj (Registry.eq_of_key hkeys ha hd hkey)
    obtain ⟨m, hm, hsum'⟩ := h.noted j d hd
    rw [if_neg hne] at hcount
    refine ⟨m, ?_, by omega⟩
    rw [List.getElem?_set_ne hj, hm]

/-- What one step preserves. -/
theorem turn (hkeys : start.keys.Nodup) (h : Tallied start workers b) (hturn : Turn b b') :
    Tallied start workers b' := by
  cases hturn with
  | step hstep =>
    rcases hstep.passes with ⟨hregistry, hpasses⟩ | ⟨w, i, c, hw, hc, hentries, hnoted, hothers⟩
    · refine ⟨fun u hu => hstep.team.step.gone (h.absent u hu), hregistry ▸ h.length,
        fun i a ha => ?_⟩
      obtain ⟨n, hn, hsum⟩ := h.noted i a ha
      refine ⟨n, hregistry ▸ hn, ?_⟩
      simp only [hpasses, hstep.dropped]
      exact hsum
    · exact h.passed hkeys hstep hw hc hentries hnoted hothers
  | @cut w hbusy hthere =>
    have hgone : Team.Step b.team (b.team.act w b.team.engine .gone) := .lost
    refine ⟨fun u hu => hgone.gone (h.absent u hu), h.length, fun i a ha => ?_⟩
    obtain ⟨n, hn, hsum⟩ := h.noted i a ha
    have hcount := Team.sum_of_eq_off
      (f := fun u => ((if u = w then {} else b.own u : Metrics)).passes.count a.key)
      (g := fun u => (b.own u).passes.count a.key) (h.lt_of_duty hthere) fun u hu => by
        rw [if_neg hu]
    have hnone : ((if w = w then {} else b.own w : Metrics)).passes.count a.key = 0 := by
      rw [if_pos rfl]
      exact Counter.count_empty _
    have hmerged : (b.dropped.merge (b.own w)).passes.count a.key =
        b.dropped.passes.count a.key + (b.own w).passes.count a.key := Counter.count_merge ..
    refine ⟨n, hn, ?_⟩
    dsimp only
    omega

/-- What a run preserves. -/
theorem turns (hkeys : start.keys.Nodup) (h : Tallied start workers b) (hturns : Turns b b') :
    Tallied start workers b' := by
  induction hturns with
  | refl => exact h
  | tail _ hturn ih => exact ih.turn hkeys hturn

/-- At the beginning nothing has run and nothing is noted. -/
theorem launch (host : Host) (workers : Nat) (e : Engine V E M P) :
    Tallied e.registry workers (Ledger.launch host workers e) where
  absent w hw := by simp [Ledger.launch, Team.launch, Nat.not_lt_of_le hw]
  length := rfl
  noted i a ha := ⟨0, ha, by simp [Ledger.launch]⟩

/-- How often each registration has run, by what is noted and what was dropped. -/
theorem entries (h : Tallied start workers b) :
    b.team.engine.registry.entries = start.entries.map fun a =>
    a.ran ((b.merged workers).passes.count a.key + b.dropped.passes.count a.key) := by
  refine List.ext_getElem? fun i => ?_
  rw [List.getElem?_map]
  cases ha : start.entries[i]? with
  | none =>
    rw [List.getElem?_eq_none_iff, ← h.length, ← List.getElem?_eq_none_iff] at ha
    exact ha
  | some a =>
    obtain ⟨n, hn, hsum⟩ := h.noted i a ha
    rw [hn, Option.map_some, count_merged, hsum]

end Tallied

/-- When everybody has left and nobody was cut off, all passes at the boundaries of each
registration are noted. -/
theorem Run.count_of_over {host : Host} {e : Engine V E M P}
    (h : Run (Ledger.launch host workers e) b) (hkeys : e.registry.keys.Nodup)
    (hfired : b.team.Fired e.registry workers) (hover : b.team.Over) {a : Registration V E}
    (ha : a ∈ e.registry.entries) :
    (b.merged workers).passes.count a.key = b.team.engine.updateCount / a.interval := by
  obtain ⟨i, hi⟩ := List.getElem?_of_mem ha
  have htallied := ((Tallied.launch host workers e).turns hkeys h.turns).entries
  rw [hfired.entries_of_over hover, h.dropped] at htallied
  have hruns := congrArg (fun l : List (Registration V E) => l[i]?.map (·.runs)) htallied
  simp only [List.getElem?_map, hi, Option.map_some, Registration.ran_runs,
    Option.some.injEq] at hruns
  have hnone : (Ledger.launch host workers e).dropped.passes.count a.key = 0 :=
    Counter.count_empty _
  omega

end Ledger

namespace Engine

/-- What starting a run comes to when the workers keep metrics and nobody is cut off, unless it is
refused or panics: the workers run in some way until all have left, and what they have noted is
merged; or one of them could not be started, and what the others have noted is dropped. A run in
which user code panics where nothing catches it, so that a worker is cut off, is left out here. -/
inductive Ends (host : Host) (e : Engine V E M P) : Except Error Unit → Engine V E M P → Prop
  | closed (hphase : e.phase.isReady = true) (hcount : e.store.vertexCount ≠ 0)
      (hroom : e.hasRoom host = true) {workers : Nat} {b : Ledger V E M P}
      (hrun : Ledger.Run (Ledger.launch host workers e) b) (hover : b.team.Over)
      (contention : Nat) :
      Ends host e (close host { b.team.engine with metrics := { b.merged workers with
        contention } }).1
        (close host { b.team.engine with metrics := { b.merged workers with contention } }).2
  | unspawned (hphase : e.phase.isReady = true) (hcount : e.store.vertexCount ≠ 0)
      (hroom : e.hasRoom host = true) {workers : Nat} {b : Ledger V E M P}
      (hrun : Ledger.Run (Ledger.launch host workers e) b) (hover : b.team.Over) (reason : String) :
      Ends host e (.error (.construction reason))
        { b.team.engine with phase := .completed, failures := [], metrics := {} }

/-- What a run with metrics comes to, a run comes to. -/
theorem Ends.starts {host : Host} {e e' : Engine V E M P} {answer : Except Error Unit}
    (h : e.Ends host answer e') : e.Starts host answer e' := by
  cases h with
  | closed hphase hcount hroom hrun hover contention =>
    exact .ran hphase hcount hroom (hrun.team.tail (.measured _)) hover
  | unspawned hphase hcount hroom hrun hover reason =>
    exact .unspawned hphase hcount hroom hrun.team hover reason

end Engine

end VertexPrograms
