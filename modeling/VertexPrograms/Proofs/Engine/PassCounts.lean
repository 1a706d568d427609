import VertexPrograms.Proofs.Engine.Passes

/-!
# The two counts of passes

How often an aggregator has run is counted twice: by its registration, from the moment at which it
is registered, and by the metrics, from the last start on. A pass that is due after an update is
counted by both, whatever it comes to. So is a pass that is asked for, unless it fails: then only
the registration counts it. What a worker has counted is lost with him if he is cut off, since user
code panics where nothing catches it; and the metrics of a run in which a worker could not be
started are dropped. These passes, which the metrics have missed, are all that the two counts differ
by.
-/

namespace VertexPrograms

variable {V E M P : Type}

namespace Registry

variable {r : Registry V E} {key : String} {a : Registration V E}

/-- What is found under a key is an entry with that key. -/
theorem mem_of_find? (h : r.find? key = some a) : a ∈ r.entries ∧ a.key = key :=
  ⟨List.mem_of_find?_eq_some h, by simpa using List.find?_some h⟩

/-- A registration removes no key. -/
theorem mem_keys_put {new : Registration V E} {entries : List (Registration V E)}
    (h : key ∈ keys ⟨entries⟩) : key ∈ keys ⟨put new entries⟩ := by
  rw [keys, keys_put]
  split
  · exact h
  · exact List.mem_append_left _ h

/-- Registrations that have run are found under the same keys. -/
theorem find?_of_ran {r' : Registry V E} {n : Registration V E → Nat}
    (h : r'.entries = r.entries.map fun a => a.ran (n a)) (key : String) :
    r'.find? key = (r.find? key).map fun a => a.ran (n a) := by
  rw [find?, h, List.find?_map]
  rfl

end Registry

/-! # Runs -/

namespace Ledger

variable {b b' : Ledger V E M P}

/-- A key that is not registered is not noted. -/
theorem Turns.count_of_not_mem {host : Host} {workers : Nat} {e : Engine V E M P}
    (h : Turns (Ledger.launch host workers e) b) {key : String} (hkey : key ∉ e.registry.keys)
    (w : Nat) : (b.own w).passes.count key = 0 := by
  induction h with
  | refl => exact Counter.count_empty key
  | @tail b b' hturns hturn ih =>
    cases hturn with
    | cut =>
      dsimp only
      split
      · exact Counter.count_empty key
      · exact ih
    | step hstep =>
      rcases hstep.passes with ⟨-, hpasses⟩ | ⟨u, i, a, -, ha, -, hnoted, hothers⟩
      · rw [hpasses, ih]
      · by_cases hw : w = u
        · subst hw
          have hmem : a.key ∈ b.team.engine.registry.keys :=
            List.mem_map_of_mem (List.mem_of_getElem? ha)
          have hne : a.key ≠ key := by
            rintro rfl
            exact hkey (Team.Run.keys (Turns.team hturns) ▸ hmem)
          rw [hnoted, Counter.count_add, ih, if_neg hne]
        · rw [hothers w hw, ih]

end Ledger

namespace Engine

variable {host : Host} {e e' : Engine V E M P} {answer : Except Error Unit} {missed : String →
  Nat} {key : String} {a : Registration V E}

/-- A start that is neither refused nor panics, and how many passes of each key its metrics miss:
the one worker runs step by step; or any number of workers run in any order of steps, and some may
be cut off, who lose what they have counted; or they do, but one of them could not be started, and
then all of it is dropped. -/
inductive Completes (host : Host) (e : Engine V E M P) :
    Except Error Unit → Engine V E M P → (String → Nat) → Prop
  | stepped (hphase : e.phase.isReady = true) (hcount : e.store.vertexCount ≠ 0)
      (hroom : e.hasRoom host = true) {steps : Nat} {answer : Except Error Unit}
      {e' : Engine V E M P} (hstart : e.start host steps = some (answer, e')) :
      Completes host e answer e' fun _ => 0
  | closed (hphase : e.phase.isReady = true) (hcount : e.store.vertexCount ≠ 0)
      (hroom : e.hasRoom host = true) {workers : Nat} {b : Ledger V E M P}
      (hturns : Ledger.Turns (Ledger.launch host workers e) b) (hover : b.team.Over)
      (contention : Nat) :
      Completes host e (close host { b.team.engine with metrics := { b.merged workers with
        contention } }).1
        (close host { b.team.engine with metrics := { b.merged workers with contention } }).2
        fun key => b.dropped.passes.count key
  | unspawned (hphase : e.phase.isReady = true) (hcount : e.store.vertexCount ≠ 0)
      (hroom : e.hasRoom host = true) {workers : Nat} {b : Ledger V E M P}
      (hturns : Ledger.Turns (Ledger.launch host workers e) b) (hover : b.team.Over)
      (reason : String) : Completes host e (.error (.construction reason))
        { b.team.engine with phase := .completed, failures := [], metrics := {} }
        fun key => (b.merged workers).passes.count key + b.dropped.passes.count key

theorem Completes.starts (h : e.Completes host answer e' missed) : e.Starts host answer e' := by
  cases h with
  | stepped _ _ _ hstart => exact starts_of_start hstart
  | closed hphase hcount hroom hturns hover contention =>
    exact .ran hphase hcount hroom (hturns.team.tail (.measured _)) hover
  | unspawned hphase hcount hroom hturns hover reason =>
    exact .unspawned hphase hcount hroom hturns.team hover reason

/-- A key that is not registered is never among the outcomes. -/
private theorem Account.count_of_not_mem {qs : List (Round P)} (h : Account (e.launch host) qs e')
    (hkey : key ∉ e.registry.keys) : e'.metrics.passes.count key = 0 := by
  rw [h.passes, List.countP_eq_zero]
  intro o ho heq
  obtain ⟨q, hq, ho⟩ := List.mem_flatMap.mp ho
  have hdue : o.key ∈ e.registry.due q.number := h.due q hq ▸ List.mem_map_of_mem ho
  exact hkey (eq_of_beq heq ▸ (e.registry.due_sublist q.number).subset hdue)

/-- A start leaves no count under a key that is not registered. -/
theorem Completes.others (hlawful : e.Lawful) (h : e.Completes host answer e' missed)
    (hkey : key ∉ e.registry.keys) : e'.metrics.passes.count key = 0 := by
  cases h with
  | stepped hphase hcount hroom hstart =>
    obtain ⟨last, hlast, hclose⟩ := start_eq_some hphase hcount hroom hstart
    have haccount := ((Account.launch host hlawful.tasks.sound).iterate hlast).1
    have hothers : (last.close host).2.metrics.passes.count key = 0 := by
      rw [close_metrics]
      exact haccount.count_of_not_mem hkey
    rwa [hclose] at hothers
  | closed hphase hcount hroom hturns hover contention =>
    rw [close_metrics]
    exact (Ledger.count_merged ..).trans (Finset.sum_eq_zero fun w _ =>
      hturns.count_of_not_mem hkey w)
  | unspawned => exact Counter.count_empty key

/-- After a start, each key has run as often as its metrics have counted and have missed. -/
theorem Completes.runs (hlawful : e.Lawful) (hkeys : e.Keyed)
    (h : e.Completes host answer e' missed) : e'.registry.entries = e.registry.entries.map fun a =>
      a.ran (e'.metrics.passes.count a.key + missed a.key) := by
  cases h with
  | stepped hphase hcount hroom hstart =>
    obtain ⟨last, hlast, hclose⟩ := start_eq_some hphase hcount hroom hstart
    have hfires := ((Account.launch host hlawful.tasks.sound).iterate hlast).1.firesOnce hkeys
    rw [hclose] at hfires
    rw [hfires.runs]
    refine List.map_congr_left fun a ha => ?_
    rw [hfires.passes a ha, Nat.add_zero]
  | @closed _ _ _ workers b hturns hover contention =>
    rw [close_registry, close_metrics]
    exact ((Ledger.Tallied.launch host workers e).turns hkeys hturns).entries
  | @unspawned _ _ _ workers b hturns hover reason =>
    have hentries := ((Ledger.Tallied.launch host workers e).turns hkeys hturns).entries
    refine hentries.trans (List.map_congr_left fun a _ => ?_)
    have hnone : ({} : Metrics).passes.count a.key = 0 := Counter.count_empty _
    dsimp only
    rw [hnone, Nat.zero_add]

/-! # Periods -/

/-- One operation. A start that is refused is none, since it leaves the engine as it is. -/
inductive Advances (e : Engine V E M P) : Engine V E M P → Prop
  | call (c : Call V E P) : Advances e (c.perform e).2
  | start {host : Host} {answer : Except Error Unit} {e' : Engine V E M P} {missed : String → Nat}
      (h : e.Completes host answer e' missed) : Advances e e'
  | cramped {host : Host} (hphase : e.phase.isReady = true) (hcount : e.store.vertexCount ≠ 0)
      (hroom : e.hasRoom host = false) : Advances e (e.collapse host)

theorem Advances.moves (h : e.Advances e') : e.Moves e' := by
  cases h with
  | call c => exact .call c
  | start h => exact .start h.starts
  | cramped hphase hcount hroom => exact .start (.cramped hphase hcount hroom)

/-- Operations in a row. -/
abbrev Record : Engine V E M P → Engine V E M P → Prop := Relation.ReflTransGen Advances

/-- What holds of the counts between operations. -/
structure Accounted (e : Engine V E M P) : Prop where
  lawful : e.Lawful
  keyed : e.Keyed
  /-- No passes are counted under a key that is not registered. -/
  others : e.phase.isLive = true → ∀ key, key ∉ e.registry.keys → e.metrics.passes.count key = 0

theorem Accounted.new (config : Config) (processors : Nat) (programs : P → Program V E M P)
    (memory : M) : (Engine.new config processors programs memory).Accounted :=
  ⟨.new .., .new .., fun _ _ _ => Counter.count_empty _⟩

/-- An engine that can be used after an operation could be used before. -/
theorem Lawful.isLive_of_moves (h : e.Lawful) (hmoves : e.Moves e')
    (hlive : e'.phase.isLive = true) : e.phase.isLive = true := by
  cases hphase : e.phase with
  | destroyed =>
    have hgone : e'.phase = .destroyed := Phase.eq_destroyed (hphase ▸ h.rank_le hmoves)
    rw [hgone] at hlive
    exact hlive
  | _ => rfl

/-- A start that panics leaves the metrics as they were, or without any pass. -/
theorem metrics_collapse (host : Host) (e : Engine V E M P) : (e.collapse host).metrics =
    if Agenda.hasRoom e.config.policy (e.config.resolvedWorkers host.processors) = true then {}
      else e.metrics := by
  rw [Engine.collapse]
  split <;> rfl

/-- A call counts no pass under a key that is not registered. -/
theorem Counts.others {c : Call V E P} (h : Counts e c e') (hlive : e'.phase.isLive = true)
    (hbefore : ∀ key, key ∉ e.registry.keys → e.metrics.passes.count key = 0)
    (hkey : key ∉ e'.registry.keys) : e'.metrics.passes.count key = 0 := by
  cases h with
  | kept hsame =>
    rw [hsame.metrics]
    exact hbefore key (hsame.registry ▸ hkey)
  | registered hanswer hregistry hmetrics =>
    rw [hmetrics]
    rw [hregistry] at hkey
    exact hbefore key fun hmem => hkey (Registry.mem_keys_put hmem)
  | @passed key' _ hanswer hmem hentries hmetrics =>
    rw [Registry.keys_of_ran hentries] at hkey
    have hne : key' ≠ key := by
      rintro rfl
      exact hkey hmem
    rw [hmetrics, Metrics.recordPass, Counter.count_add, if_neg hne]
    exact hbefore key hkey
  | failed hanswer hentries hmetrics =>
    rw [hmetrics]
    exact hbefore key (Registry.keys_of_ran hentries ▸ hkey)
  | destroyed hphase =>
    rw [hphase] at hlive
    cases hlive

/-- Whatever advances an engine keeps it accounted for. -/
theorem Accounted.advances (h : e.Accounted) (hadvances : e.Advances e') : e'.Accounted where
  lawful := h.lawful.moves hadvances.moves
  keyed := h.keyed.moves hadvances.moves
  others hlive key hkey := by
    have hbefore := h.others (h.lawful.isLive_of_moves hadvances.moves hlive)
    cases hadvances with
    | call c => exact (c.counts e).others hlive hbefore hkey
    | start hstart => exact hstart.others h.lawful (hstart.starts.keys ▸ hkey)
    | @cramped host =>
      rw [metrics_collapse]
      split
      · exact Counter.count_empty key
      · exact hbefore key (registry_collapse host e ▸ hkey)

theorem Accounted.record (h : e.Accounted) (hrecord : Record e e') : e'.Accounted := by
  induction hrecord with
  | refl => exact h
  | tail _ hadvances ih => exact ih.advances hadvances

/-- How far the two counts of a key may have come apart, in the period that began with the last
start, or with the registration of the key if that came later; the key is not registered again in
the period. Its registration had run `base` times when the period began, and the metrics have missed
`missed` of its passes since. A start that finds no memory for its agenda panics before the metrics
are reset, and so begins no period. -/
inductive Period (first : Engine V E M P) (key : String) : Engine V E M P → Nat → Nat → Prop
  | registered {e : Engine V E M P} {pass : Pass V E} {interval : Nat} (hrecord : Record first e)
      (hnew : e.registry.contains key = false)
      (hanswer : (e.addAggregator key pass interval).1 = .ok ()) :
      Period first key (e.addAggregator key pass interval).2 0 0
  | started {host : Host} {answer : Except Error Unit} {e e' : Engine V E M P} {missed : String →
      Nat} {a : Registration V E} (hrecord : Record first e) (ha : e.registry.find? key = some a)
      (hstart : e.Completes host answer e' missed) : Period first key e' a.runs (missed key)
  /-- There is no memory for the list of the workers. -/
  | begun {host : Host} {e : Engine V E M P} {a : Registration V E} (hrecord : Record first e)
      (ha : e.registry.find? key = some a) (hphase : e.phase.isReady = true)
      (hcount : e.store.vertexCount ≠ 0) (hroom : e.hasRoom host = false)
      (hagenda : Agenda.hasRoom e.config.policy (e.config.resolvedWorkers host.processors) = true) :
      Period first key (e.collapse host) a.runs 0
  /-- There is no memory for the agenda. -/
  | unprepared {host : Host} {e : Engine V E M P} {base missed : Nat}
      (h : Period first key e base missed) (hphase : e.phase.isReady = true)
      (hcount : e.store.vertexCount ≠ 0) (hroom : e.hasRoom host = false)
      (hagenda : Agenda.hasRoom e.config.policy (e.config.resolvedWorkers host.processors) =
        false) : Period first key (e.collapse host) base missed
  | called {e : Engine V E M P} {base missed : Nat} (h : Period first key e base missed)
      (c : Call V E P) (hadd : ∀ pass interval, c = .addAggregator key pass interval →
        (e.addAggregator key pass interval).1 ≠ .ok ())
      (hnow : c = .aggregateNow key → ∀ text, (e.aggregateNow key).1 ≠ .error (.execution text)) :
      Period first key (c.perform e).2 base missed
  /-- A pass that is asked for and fails is missed. -/
  | failed {e : Engine V E M P} {base missed : Nat} {text : String}
      (h : Period first key e base missed)
      (hanswer : (e.aggregateNow key).1 = .error (.execution text)) :
      Period first key (e.aggregateNow key).2 base (missed + 1)

namespace Period

variable {first : Engine V E M P} {base missed : Nat}

theorem record (h : Period first key e base missed) : Record first e := by
  induction h with
  | registered hrecord => exact hrecord.tail (.call (.addAggregator ..))
  | started hrecord _ hstart => exact hrecord.tail (.start hstart)
  | begun hrecord _ hphase hcount hroom => exact hrecord.tail (.cramped hphase hcount hroom)
  | unprepared _ hphase hcount hroom _ ih => exact ih.tail (.cramped hphase hcount hroom)
  | called _ c _ _ ih => exact ih.tail (.call c)
  | failed _ _ ih => exact ih.tail (.call (.aggregateNow _))

end Period

/-- A key has run so many times more than its passes have been counted by the metrics. -/
def Ahead (key : String) (e : Engine V E M P) (more : Nat) : Prop :=
  ∃ a, e.registry.find? key = some a ∧ a.runs = more + e.metrics.passes.count key

/-- When the registrations under one key have run once more, so has the key, and no other. -/
private theorem find?_ran {key' : String} (ha : e.registry.find? key = some a)
    (hentries : e'.registry.entries = e.registry.entries.map fun a => a.ran (a.key == key').toNat) :
    e'.registry.find? key = some (a.ran (key == key').toNat) := by
  rw [Registry.find?_of_ran hentries, ha, Option.map_some, (Registry.mem_of_find? ha).2]

/-- A call that does not register the key, or ask for a pass that fails, counts twice what it
counts. -/
theorem Counts.ahead {c : Call V E P} {more : Nat} (h : Counts e c e')
    (hlive : e'.phase.isLive = true) (hadd : ∀ pass interval, c = .addAggregator key pass interval →
      (e.addAggregator key pass interval).1 ≠ .ok ())
    (hnow : c = .aggregateNow key → ∀ text, (e.aggregateNow key).1 ≠ .error (.execution text))
    (hahead : e.Ahead key more) : e'.Ahead key more := by
  obtain ⟨a, ha, hruns⟩ := hahead
  cases h with
  | kept hsame => exact ⟨a, hsame.registry ▸ ha, hsame.metrics ▸ hruns⟩
  | @registered key' pass interval _ hanswer hregistry hmetrics =>
    have hne : key' ≠ key := by
      rintro rfl
      exact hadd pass interval rfl hanswer
    refine ⟨a, ?_, hmetrics ▸ hruns⟩
    rw [hregistry, Registry.find?, Registry.find?_put, if_neg hne]
    exact ha
  | @passed key' _ hanswer hmem hentries hmetrics =>
    refine ⟨_, find?_ran ha hentries, ?_⟩
    rw [hmetrics, Metrics.recordPass, Counter.count_add, Registration.ran_runs, hruns]
    by_cases hkey : key' = key
    · simp [hkey, Nat.add_assoc]
    · simp [hkey, Ne.symm hkey]
  | @failed key' text _ hanswer hentries hmetrics =>
    have hne : (key == key') = false := by
      rw [beq_eq_false_iff_ne]
      rintro rfl
      exact hnow rfl text hanswer
    refine ⟨_, find?_ran ha hentries, ?_⟩
    rw [hmetrics, hne]
    exact hruns
  | destroyed hphase =>
    rw [hphase] at hlive
    cases hlive

/-- A pass that is asked for and fails is counted by its registration alone. -/
theorem Counts.ahead_succ {text : String} {more : Nat} (h : Counts e (.aggregateNow key) e')
    (hanswer : (e.aggregateNow key).1 = .error (.execution text)) (hahead : e.Ahead key more) :
    e'.Ahead key (more + 1) := by
  obtain ⟨a, ha, hruns⟩ := hahead
  cases h with
  | kept _ _ hnow => exact absurd hanswer (hnow key text rfl)
  | passed hok =>
    rw [hok] at hanswer
    cases hanswer
  | failed _ hentries hmetrics =>
    refine ⟨_, find?_ran ha hentries, ?_⟩
    rw [hmetrics, beq_self_eq_true, Registration.ran_runs, hruns]
    simp only [Bool.toNat_true]
    omega

/-- A key that is registered for the first time has not run, and no passes have been counted under
it. -/
theorem Accounted.ahead_addAggregator {pass : Pass V E} {interval : Nat} (h : e.Accounted)
    (hnew : e.registry.contains key = false)
    (hanswer : (e.addAggregator key pass interval).1 = .ok ()) :
    (e.addAggregator key pass interval).2.Ahead key 0 := by
  have hlive : e.phase.isLive = true := by
    cases hphase : e.phase with
    | destroyed =>
      have hrefused := perform_of_destroyed hphase (.addAggregator key pass interval) rfl
      cases hanswer.symm.trans (congrArg Prod.fst hrefused)
    | _ => rfl
  have hkey : key ∉ e.registry.keys := by
    rw [← Registry.contains_eq_true, hnew]
    exact Bool.false_ne_true
  have hcounts :
      Counts e (.addAggregator key pass interval) (e.addAggregator key pass interval).2 :=
        Call.counts _ e
  cases hcounts with
  | kept _ hadd => exact absurd hanswer (hadd key pass interval rfl)
  | registered _ hregistry hmetrics =>
    refine ⟨{ key, pass, interval }, ?_, ?_⟩
    · rw [hregistry, Registry.find?, Registry.find?_put, if_pos rfl]
    · rw [hmetrics, h.others hlive key hkey]

/-- After a start, a key has run as often as before and as the metrics have counted and have missed.
-/
theorem Completes.ahead (h : e.Accounted) (hstart : e.Completes host answer e' missed)
    (ha : e.registry.find? key = some a) : e'.Ahead key (a.runs + missed key) := by
  obtain ⟨-, rfl⟩ := Registry.mem_of_find? ha
  have hentries := hstart.runs h.lawful h.keyed
  refine ⟨_, (Registry.find?_of_ran hentries a.key).trans (congrArg (Option.map _) ha), ?_⟩
  rw [Registration.ran_runs]
  omega

/-- After a start that panics the counts are as far apart as before, if the metrics have been kept.
-/
theorem Ahead.collapse {more : Nat} (h : e.Ahead key more)
    (hagenda : Agenda.hasRoom e.config.policy (e.config.resolvedWorkers host.processors) = false) :
    (e.collapse host).Ahead key more := by
  rw [Ahead, registry_collapse, metrics_collapse, hagenda]
  exact h

/-- Otherwise the metrics count from then on. -/
theorem ahead_collapse (ha : e.registry.find? key = some a)
    (hagenda : Agenda.hasRoom e.config.policy (e.config.resolvedWorkers host.processors) = true) :
    (e.collapse host).Ahead key a.runs := by
  refine ⟨a, registry_collapse host e ▸ ha, ?_⟩
  rw [metrics_collapse, if_pos hagenda]
  exact (congrArg (a.runs + ·) (Counter.count_empty key)).symm

/-- In the period that began with the last start, or with the registration of a key that came later,
the key has run as often as the metrics have counted and have missed. A pass that was due after an
update is never missed, whatever it came to, unless the worker that ran it was cut off or a worker
could not be started; and of those that were asked for, those are missed that failed. -/
theorem runs_eq_passes_add_missed {config : Config} {processors : Nat}
    {programs : P → Program V E M P} {memory : M} {base missed : Nat}
    (h : Period (Engine.new config processors programs memory) key e base missed)
    (hlive : e.phase.isLive = true) : ∃ a, e.registry.find? key = some a ∧
    a.runs = base + (e.metrics.passes.count key + missed) := by
  have haccounted {e : Engine V E M P}
      (hrecord : Record (Engine.new config processors programs memory) e) : e.Accounted :=
        (Accounted.new ..).record hrecord
  have hahead : e.Ahead key (base + missed) := by
    induction h with
    | registered hrecord hnew hanswer => exact (haccounted hrecord).ahead_addAggregator hnew hanswer
    | started hrecord ha hstart => exact hstart.ahead (haccounted hrecord) ha
    | begun _ ha _ _ _ hagenda => exact ahead_collapse ha hagenda
    | unprepared h hphase hcount hroom hagenda ih =>
      have hmoves := Moves.start (.cramped hphase hcount hroom)
      exact (ih ((haccounted h.record).lawful.isLive_of_moves hmoves hlive)).collapse hagenda
    | @called e base missed h c hadd hnow ih =>
      have hlawful := (haccounted h.record).lawful
      exact (c.counts e).ahead hlive hadd hnow (ih (hlawful.isLive_of_moves (.call c) hlive))
    | @failed e base missed text h hanswer ih =>
      have hlawful := (haccounted h.record).lawful
      have hcounts := Call.counts (.aggregateNow key) e
      exact hcounts.ahead_succ hanswer
        (ih (hlawful.isLive_of_moves (.call (.aggregateNow key)) hlive))
  obtain ⟨a, ha, hruns⟩ := hahead
  exact ⟨a, ha, by omega⟩

/-- The engine with a pass that fails and runs when it is asked for. -/
def reluctant : Engine Nat Nat Unit Unit :=
  (tally.addAggregator "sum" (fun _ _ g => (.error (.panicked none), g)) 0).2

/-- The period of one pass that fails. -/
theorem period_reluctant : Period tally "sum" (reluctant.aggregateNow "sum").2 0 1 := by
  have hanswer : (reluctant.aggregateNow "sum").1 =
      .error (.execution "aggregator sum: panicked") := rfl
  exact .failed (.registered .refl rfl rfl) hanswer

/-- The pass has run once, and the metrics have missed it. -/
theorem runs_eq_passes_add_missed_reluctant :
    Period tally "sum" (reluctant.aggregateNow "sum").2 0 1 ∧
      (reluctant.aggregateNow "sum").2.phase.isLive = true ∧
      ∃ a, (reluctant.aggregateNow "sum").2.registry.find? "sum" = some a ∧
        a.runs = 0 + ((reluctant.aggregateNow "sum").2.metrics.passes.count "sum" + 1) :=
  ⟨period_reluctant, rfl, runs_eq_passes_add_missed period_reluctant rfl⟩

/-- So it is not true that a key has run in each period as often as the metrics have counted. -/
theorem not_forall_runs_eq_passes :
    ¬∀ (e : Engine Nat Nat Unit Unit) (key : String) (base missed : Nat),
      Period tally key e base missed → e.phase.isLive = true →
      ∃ a, e.registry.find? key = some a ∧ a.runs = base + e.metrics.passes.count key := by
  intro hall
  obtain ⟨a, ha, hruns⟩ := hall _ _ _ _ period_reluctant rfl
  have hfind : (reluctant.aggregateNow "sum").2.registry.find? "sum" =
      some ⟨"sum", 0, fun _ _ g => (.error (.panicked none), g), 1⟩ := rfl
  have hzero : (reluctant.aggregateNow "sum").2.metrics.passes.count "sum" = 0 :=
    Counter.count_empty "sum"
  rw [hzero, ← Option.some.inj (hfind.symm.trans ha)] at hruns
  cases hruns

end Engine

end VertexPrograms
