import VertexPrograms.Proofs.Engine.Ledger
import VertexPrograms.Proofs.Engine.Stages

/-!
# Passes in the life of an engine

No operation registers a key twice, so that in each run a key comes to a boundary as often as its
interval goes into the number of updates. Its registration has run so often when the run is over,
and the metrics say so.
-/

namespace VertexPrograms

variable {V E M P : Type}

/-! # Keys -/

namespace Registry

variable {r : Registry V E} {key : String}

theorem contains_eq_true : r.contains key = true ↔ key ∈ r.keys := by
  rw [contains, find?, List.find?_isSome, keys, List.mem_map]
  simp

/-- Registrations that have run have the same keys. -/
theorem keys_of_ran {r' : Registry V E} {n : Registration V E → Nat}
    (h : r'.entries = r.entries.map fun a => a.ran (n a)) : r'.keys = r.keys := by
  rw [keys, h, List.map_map]
  rfl

/-- A pass that is asked for is counted under its key. -/
theorem entries_trigger (r : Registry V E) (key : String) (t : Topology) (c : Cells V E)
    (g : Globals) : (r.trigger key t c g).entries = r.entries.map fun a =>
      a.ran (a.key == key).toNat :=
  entries_runWhere ..

end Registry

/-- No step of a run registers a key or gives one up. -/
theorem Team.Step.keys {r r' : Team V E M P} (h : Step r r') :
    r'.engine.registry.keys = r.engine.registry.keys := by
  cases h with
  | @passed w count i fs a hw ha hdue globals fault =>
    have hkey : r.engine.registry.keys[i]? = some a.key := by
      rw [Registry.keys, List.getElem?_map, ha]; rfl
    obtain ⟨hi, hkey⟩ := List.getElem?_eq_some_iff.mp hkey
    calc (r.engine.registry.entries.set i { a with runs := a.runs + 1 }).map (·.key)
      _ = r.engine.registry.keys.set i a.key := List.map_set
      _ = r.engine.registry.keys := by rw [← hkey, List.set_getElem_self]
  | _ => rfl

/-- A run registers no key and removes none. -/
theorem Team.Run.keys {r r' : Team V E M P} (h : Run r r') :
    r'.engine.registry.keys = r.engine.registry.keys := by
  induction h with
  | refl => rfl
  | tail _ hstep ih => exact hstep.keys.trans ih

namespace Engine

variable {host : Host} {e e' : Engine V E M P} {answer : Except Error Unit} {steps : Nat}

/-- A start keeps the keys. -/
theorem Starts.keys (h : e.Starts host answer e') : e'.registry.keys = e.registry.keys := by
  cases h with
  | refused | empty => rfl
  | cramped => rw [registry_collapse]
  | ran hphase hcount hroom hrun hover =>
    rw [close_registry]
    exact hrun.keys
  | unspawned hphase hcount hroom hrun hover reason => exact hrun.keys

/-- Whether a call registers an aggregator or asks for a pass. -/
def Call.isAggregation : Call V E P → Bool
  | .addAggregator _ _ _ | .aggregateNow _ => true
  | _ => false

/-- Neither count has changed. -/
structure SameCounts (e e' : Engine V E M P) : Prop where
  registry : e'.registry = e.registry
  metrics : e'.metrics = e.metrics

/-- What a call makes of the two counts. -/
inductive Counts (e : Engine V E M P) : Call V E P → Engine V E M P → Prop
  | kept {c : Call V E P} {e' : Engine V E M P} (hsame : e.SameCounts e')
      (hadd : ∀ key pass interval, c = .addAggregator key pass interval →
        (e.addAggregator key pass interval).1 ≠ .ok ())
      (hnow : ∀ key text, c = .aggregateNow key →
        (e.aggregateNow key).1 ≠ .error (.execution text)) :
      Counts e c e'
  | registered {key : String} {pass : Pass V E} {interval : Nat} {e' : Engine V E M P}
      (hanswer : (e.addAggregator key pass interval).1 = .ok ())
      (hregistry : e'.registry = ⟨Registry.put { key, pass, interval } e.registry.entries⟩)
      (hmetrics : e'.metrics = e.metrics) : Counts e (.addAggregator key pass interval) e'
  | passed {key : String} {e' : Engine V E M P} (hanswer : (e.aggregateNow key).1 = .ok ())
      (hkey : key ∈ e.registry.keys)
      (hentries : e'.registry.entries = e.registry.entries.map fun a => a.ran (a.key == key).toNat)
      (hmetrics : e'.metrics = e.metrics.recordPass key) :
      Counts e (.aggregateNow key) e'
  | failed {key text : String} {e' : Engine V E M P}
      (hanswer : (e.aggregateNow key).1 = .error (.execution text))
      (hentries : e'.registry.entries = e.registry.entries.map fun a => a.ran (a.key == key).toNat)
      (hmetrics : e'.metrics = e.metrics) : Counts e (.aggregateNow key) e'
  | destroyed {e' : Engine V E M P} (hphase : e'.phase = .destroyed)
      (hregistry : e'.registry = e.registry ∨ e'.registry = {}) : Counts e .destroy e'

open Operation

/-- A pass that is asked for and not made leaves the engine as it was, and the answer is not about
the pass. -/
private theorem aggregateNow_of_refused (h : e.phase.isLive = false ∨
    e.registry.contains key = false) : ∃ error, e.aggregateNow key = (.error error, e) ∧
      ∀ text, error ≠ .execution text := by
  cases hphase : e.phase.isLive with
  | false =>
    refine ⟨.state "aggregate_now" e.phase.name, by simp [aggregateNow, during, hphase], ?_⟩
    rintro text ⟨⟩
  | true =>
    have hkey : e.registry.contains key = false := h.resolve_left (by simp [hphase])
    refine ⟨.unknownAggregator key, by simp [aggregateNow, during, hphase, hkey], ?_⟩
    rintro text ⟨⟩

/-- The error of a pass that is asked for is about what the pass came to. -/
private theorem triggerError_eq_error {outcomes : List Registry.Outcome} {error : Error}
    (h : triggerError key outcomes = .error error) : ∃ text, error = .execution text := by
  rw [triggerError] at h
  split at h
  · exact ⟨_, (Except.error.inj h).symm⟩
  · cases h

/-- A pass that is asked for is counted by its registration, and by the metrics if it does not fail.
-/
private theorem counts_aggregateNow (e : Engine V E M P) (key : String) :
    Counts e (.aggregateNow key) (e.aggregateNow key).2 := by
  by_cases hrefused : e.phase.isLive = false ∨ e.registry.contains key = false
  · obtain ⟨error, hanswer, hother⟩ := aggregateNow_of_refused hrefused
    rw [hanswer]
    refine .kept ⟨rfl, rfl⟩ ?_ ?_
    · rintro _ _ _ ⟨⟩
    · rintro _ text ⟨⟩ htext
      rw [hanswer] at htext
      exact hother text (Except.error.inj htext)
  · obtain ⟨hphase, hkey⟩ : e.phase.isLive = true ∧ e.registry.contains key = true := by
      simpa using hrefused
    let passed := e.registry.trigger key e.store.topology e.store.cells e.globals
    have hentries : passed.entries = e.registry.entries.map fun a => a.ran (a.key == key).toNat :=
      e.registry.entries_trigger ..
    cases herror : triggerError key passed.outcomes with
    | ok _ =>
      have hmade : e.aggregateNow key = (.ok (), { e with
          registry := ⟨passed.entries⟩
          globals := passed.globals
          metrics := e.metrics.recordPass key }) := by
        simp [aggregateNow, during, hphase, hkey, passed, herror]
      rw [hmade]
      exact .passed (by rw [hmade]) (Registry.contains_eq_true.mp hkey) hentries rfl
    | error error =>
      obtain ⟨text, rfl⟩ := triggerError_eq_error herror
      have hmade : e.aggregateNow key = (.error (.execution text), { e with
          registry := ⟨passed.entries⟩
          globals := passed.globals }) := by
        simp [aggregateNow, during, hphase, hkey, passed, herror]
      rw [hmade]
      exact .failed (by rw [hmade]) hentries rfl

/-- Registering a key puts it into the registry, unless it is refused. -/
private theorem counts_addAggregator (e : Engine V E M P) (key : String) (pass : Pass V E)
    (interval : Nat) : Counts e (.addAggregator key pass interval)
    (e.addAggregator key pass interval).2 := by
  have hrefused {error : Error} (h : e.addAggregator key pass interval = (.error error, e)) :
      Counts e (.addAggregator key pass interval) (e.addAggregator key pass interval).2 := by
    rw [h]
    refine .kept ⟨rfl, rfl⟩ ?_ ?_
    · rintro _ _ _ ⟨⟩ hok
      rw [h] at hok
      cases hok
    · rintro _ _ ⟨⟩
  cases hphase : e.phase.isIdle with
  | false => exact hrefused (by simp only [addAggregator, during, hphase]; rfl)
  | true =>
    by_cases hkey : key.isEmpty = true
    · exact hrefused (by
        simp only [addAggregator, during, hphase, setUp, change, Registry.register, hkey]; rfl)
    · have hmade : e.addAggregator key pass interval = (.ok (),
          { e with registry :=
            ⟨Registry.put { key, pass, interval } e.registry.entries⟩ }.markConfigured) := by
        simp only [addAggregator, during, hphase, setUp, change, Registry.register, hkey]
        rfl
      rw [hmade]
      exact .registered (congrArg Prod.fst hmade) rfl rfl

/-- A call does one of these things to the counts. -/
theorem Call.counts (c : Call V E P) (e : Engine V E M P) : Counts e c (c.perform e).2 := by
  have hkept {c : Call V E P} {e' : Engine V E M P} (h : e.SameCounts e')
      (hc : c.isAggregation = false) : Counts e c e' := by
    refine .kept h ?_ ?_
    · rintro key pass interval rfl
      cases hc
    · rintro key text rfl
      cases hc
  have hsame : e.SameCounts e := ⟨rfl, rfl⟩
  cases c with
  | aggregateNow key => exact counts_aggregateNow e key
  | addAggregator key pass interval => exact counts_addAggregator e key pass interval
  | destroy =>
    change Counts e .destroy e.destroy
    rw [Engine.destroy]
    split
    · exact .destroyed ‹_› (.inl rfl)
    · exact .destroyed rfl (.inr rfl)
  | setWorkers n =>
    refine hkept (keeps_during hsame fun _ => keeps_setUp hsame fun e' he' => ?_) rfl
    split at he'
    · cases he'
    · obtain rfl := Except.ok.inj he'
      exact ⟨rfl, rfl⟩
  | setPolicy policy | setConsistency consistency =>
    refine hkept (keeps_during hsame fun _ => keeps_setUp hsame fun e' he' => ?_) rfl
    obtain rfl := Except.ok.inj he'
    exact ⟨rfl, rfl⟩
  | resize | addVertex | addEdge | setGraph =>
    exact hkept (keeps_during hsame fun _ => keeps_build hsame fun _ _ => ⟨rfl, rfl⟩) rfl
  | addGlobal | addConstant =>
    refine hkept (keeps_during hsame fun _ => keeps_setUp hsame fun e' he' => ?_) rfl
    obtain ⟨globals, -, rfl⟩ := ok_of_map he'
    exact ⟨rfl, rfl⟩
  | setGlobal =>
    refine hkept (keeps_during hsame fun _ => keeps_change hsame fun e' he' => ?_) rfl
    obtain ⟨globals, -, rfl⟩ := ok_of_map he'
    exact ⟨rfl, rfl⟩
  | schedule =>
    refine hkept (keeps_during hsame fun _ => keeps_setUp hsame fun e' he' => ?_) rfl
    obtain ⟨v, -, he'⟩ := ok_of_bind he'
    obtain rfl := Except.ok.inj he'
    exact ⟨rfl, rfl⟩
  | scheduleAll =>
    refine hkept (keeps_during hsame fun _ => keeps_setUp hsame fun e' he' => ?_) rfl
    split at he'
    · cases he'
    · obtain rfl := Except.ok.inj he'
      exact ⟨rfl, rfl⟩
  | editData =>
    refine hkept (keeps_during hsame fun _ => keeps_change hsame fun e' he' => ?_) rfl
    obtain rfl := Except.ok.inj he'
    exact ⟨rfl, rfl⟩
  | useGlobals => exact hkept (keeps_during hsame fun _ => ⟨rfl, rfl⟩) rfl
  | state | isDestroyed | config => exact hkept hsame rfl
  | _ => exact hkept (keeps_during hsame fun _ => hsame) rfl

/-- No key is registered twice. -/
def Keyed (e : Engine V E M P) : Prop := e.registry.keys.Nodup

theorem Keyed.new (config : Config) (processors : Nat) (programs : P → Program V E M P)
    (memory : M) : (Engine.new config processors programs memory).Keyed := List.nodup_nil

/-- No call registers a key twice. -/
theorem Keyed.perform (h : e.Keyed) (c : Call V E P) : (c.perform e).2.Keyed := by
  have hcounts := c.counts e
  generalize (c.perform e).2 = e' at hcounts ⊢
  cases hcounts with
  | kept hsame =>
    rw [Keyed, hsame.registry]
    exact h
  | registered _ hregistry =>
    rw [Keyed, hregistry]
    exact Registry.nodup_put h _
  | passed _ _ hentries | failed _ hentries =>
    rw [Keyed, Registry.keys_of_ran hentries]
    exact h
  | destroyed _ hregistry =>
    rcases hregistry with hregistry | hregistry <;> rw [Keyed, hregistry]
    · exact h
    · exact List.nodup_nil

/-- No operation registers a key twice. -/
theorem Keyed.moves (h : e.Keyed) (hmoves : Moves e e') : e'.Keyed := by
  cases hmoves with
  | call c => exact h.perform c
  | start hstarts =>
    rw [Keyed, hstarts.keys]
    exact h

/-- Whatever is done with an engine, it has each key once. -/
theorem Keyed.history (h : e.Keyed) (hhistory : History e e') : e'.Keyed := by
  induction hhistory with
  | refl => exact h
  | tail _ hmoves ih => exact ih.moves hmoves

/-! # Runs -/

/-- Each key has run as often in a run as its interval goes into the number of updates, and its
metrics say so. -/
structure FiresOnce (e e' : Engine V E M P) : Prop where
  runs : e'.registry.entries = e.registry.entries.map fun a => a.ran (e'.updateCount / a.interval)
  passes : ∀ a ∈ e.registry.entries, e'.metrics.passes.count a.key = e'.updateCount / a.interval

/-- If each round runs what is due, a key has as many outcomes as it has boundaries among the
rounds. -/
private theorem countP_outcomes {r : Registry V E} (h : r.keys.Nodup) {a : Registration V E}
    (ha : a ∈ r.entries) {qs : List (Round P)}
    (hdue : ∀ q ∈ qs, q.outcomes.map (·.key) = r.due q.number) :
    (qs.flatMap (·.outcomes)).countP (·.key == a.key) = (qs.map (·.number)).countP a.isDue := by
  induction qs with
  | nil => rfl
  | cons q qs ih =>
    have hq : q.outcomes.countP (·.key == a.key) = (a.isDue q.number).toNat := by
      have hcount := Registry.count_due h ha q.number
      rwa [← hdue q List.mem_cons_self, List.count, List.countP_map] at hcount
    have hqs := ih fun q hq => hdue q (List.mem_cons_of_mem _ hq)
    rw [List.flatMap_cons, List.countP_append, List.map_cons, List.countP_cons, hq, hqs]
    cases a.isDue q.number <;> simp [Nat.add_comm]

/-- An account that is closed tells that each boundary has fired once. -/
theorem Account.firesOnce {qs : List (Round P)} (h : Account (e.launch host) qs e')
    (hkeys : e.Keyed) : FiresOnce e (e'.close host).2 where
  runs := by
    rw [close_registry, close_updateCount, h.count]
    exact h.entries
  passes := by
    intro a ha
    have hmetrics := congrArg Metrics.passes (close_metrics host e')
    rw [hmetrics, close_updateCount, h.count, ← a.countP_isDue, ← h.numbers, ← countP_outcomes hkeys
      ha h.due]
    exact h.passes a.key

/-- When nobody is cut off, each key has run as often as its interval goes into the number of
updates. -/
theorem Ends.runs (h : e.Ends host answer e') :
    e'.registry.entries = e.registry.entries.map fun a => a.ran (e'.updateCount / a.interval) := by
  cases h with
  | @closed _ _ _ workers b hrun hover contention =>
    rw [close_registry, close_updateCount]
    exact (Team.Fired.of_works hrun.works).entries_of_over hover
  | @unspawned _ _ _ workers b hrun hover reason =>
    exact (Team.Fired.of_works hrun.works).entries_of_over hover

/-- The end of a run whose workers have all been started, and none cut off, tells that each boundary
has fired once. -/
theorem Ends.firesOnce (h : e.Ends host answer e') (hkeys : e.Keyed)
    (hanswer : ∀ reason, answer ≠ .error (.construction reason)) : FiresOnce e e' := by
  refine ⟨h.runs, fun a ha => ?_⟩
  cases h with
  | @closed _ _ _ workers b hrun hover contention =>
    rw [close_metrics, close_updateCount]
    exact hrun.count_of_over hkeys (.of_works hrun.works) hover ha
  | unspawned _ _ _ _ _ reason => exact absurd rfl (hanswer reason)

/-- What is due after the task of a stage runs in order, on what the update has left. -/
def Stage.Fires (host : Host) (r : Registry V E) (s : Stage V E M P) : Prop :=
  let u := s.engine.updated host s.task
  Registry.Passes u.store.topology u.store.cells (r.entries.filter (·.isDue (s.round host).number))
    u.globals (s.round host).outcomes (s.after host).globals

/-- In a run by steps, what is due runs in order after each update. -/
theorem Lawful.fires (h : e.Lawful) {s : Stage V E M P}
    (hs : s ∈ stages host steps (e.launch host)) : s.Fires host e.registry := by
  obtain ⟨before, after, hstages⟩ := List.append_of_mem hs
  obtain ⟨_, e', -, hcomes, hrest⟩ := exists_comes hstages
  obtain ⟨_, t, scheduler, -, -, rfl, -⟩ := of_stages_eq_cons hrest
  have hentries := ((Account.launch host h.tasks.sound).comes hcomes).entries
  have hpasses := Registry.passes_onUpdate e'.registry (e'.updateCount + 1)
    (Engine.updated host { e' with scheduler } t).store.topology
    (Engine.updated host { e' with scheduler } t).store.cells (Engine.updated host { e' with
      scheduler } t).globals
  rw [hentries, List.filter_map] at hpasses
  rw [Stage.Fires, Stage.after, execute_eq]
  exact hpasses.of_ran

/--
However aggregators have been registered, and in whatever order the numbers of the updates reach the
registry, each boundary fires once, whatever the passes come to: the passes that are due run one
after another, and no others. So they do after each update of a run by steps, whether the run is
aborted or not.

After a run each key has run as often as its interval goes into the number of updates, and the
metrics say so. This holds of a run by steps, and of one by any number of workers in any order of
steps, unless a worker is cut off because user code panics where nothing catches it. If a worker
could not be started, the keys have run as often, but the metrics are dropped; and a start that
panics for want of memory runs no pass.
-/
theorem boundaries_fire_once (V E M P : Type) :
    (∀ (r : Registry V E) (calls : List (Registry.Call V E)), r.keys.Nodup →
      (r.afterAll calls).keys = r.keys ++ ((Registry.accepted calls).removeAll r.keys).eraseDups ∧
      (∀ key, (r.afterAll calls).find? key =
        (((calls.filter fun c => !c.key.isEmpty).reverse.find? (·.key == key)).map
          Registry.Call.entry).or (r.find? key)) ∧
      (r.afterAll calls).FiresOnce) ∧
    ∀ (config : Config) (processors : Nat) (programs : P → Program V E M P) (memory : M)
      (e : Engine V E M P), History (Engine.new config processors programs memory) e →
        e.registry.FiresOnce ∧
        (∀ host steps answer e', e.phase.isReady = true → e.store.vertexCount ≠ 0 →
          e.hasRoom host = true → e.start host steps = some (answer, e') →
          e.FiresOnce e' ∧ ∀ s ∈ stages host steps (e.launch host), s.Fires host e.registry) ∧
        (∀ host answer e', e.Ends host answer e' →
          e'.registry.entries =
            (e.registry.entries.map fun a => a.ran (e'.updateCount / a.interval)) ∧
          ((∀ reason, answer ≠ .error (.construction reason)) → e.FiresOnce e')) ∧
        ∀ host, (e.collapse host).registry = e.registry := by
  refine ⟨fun r calls h => ⟨r.keys_afterAll calls, r.find?_afterAll calls, ?_⟩, ?_⟩
  · exact Registry.firesOnce (Registry.nodup_afterAll h calls)
  · intro config processors programs memory e h
    have hkeys := (Keyed.new config processors programs memory).history h
    have hlawful := (Lawful.new config processors programs memory).history h
    refine ⟨Registry.firesOnce hkeys, ?_, fun host answer e' hends =>
      ⟨hends.runs, hends.firesOnce hkeys⟩,
      fun host => registry_collapse host e⟩
    intro host steps answer e' hready hcount hroom hstart
    obtain ⟨last, hlast, hclose⟩ := start_eq_some hready hcount hroom hstart
    have hfires := ((Account.launch host hlawful.tasks.sound).iterate hlast).1.firesOnce hkeys
    rw [hclose] at hfires
    exact ⟨hfires, fun s hs => hlawful.fires hs⟩

/-- The one worker of a run with one task, whose update ends well and is followed by a pass that
does not. -/
theorem works_primed : ∃ r : Team Nat Nat Unit Unit,
    Relation.ReflTransGen Team.Works (Team.launch {} 1 primed) r ∧ r.Over ∧
      r.engine.updateCount = 1 ∧ r.engine.config.abortOnError = false := by
  have hlaunch : Team.launch {} 1 primed =
      { engine := { primed.launch {} with
          scheduler :=
            { primed.scheduler with agenda := .queue (({} : Queue VertexIndex).push 0) } }
        locks := 1
        duty := fun w => if w < 1 then .asking else .gone } := by
    rw [Team.launch, launch_primed]
    rfl
  rw [hlaunch]
  refine ⟨_,
    .head (.act (w := 0) (.took rfl rfl) (by simp)) <|
    .head (.act (w := 0) (.locked rfl) (by simp)) <|
    .head (.act (w := 0) (.entered rfl) (by simp)) <|
    .head (.act (w := 0) (.called rfl) (by simp)) <|
    .head (.act (w := 0) (.called rfl) (by simp)) <|
    .head (.act (w := 0) (.released rfl rfl) (by simp)) <|
    .head (.act (w := 0) (.counted rfl) (by simp)) <|
    .head (.act (w := 0) (.completed rfl) (by simp)) <|
    .head (.act (w := 0) (.succeeded rfl) (by simp)) <|
    .head (.act (w := 0) (.passed rfl rfl rfl {} (some (.panicked none))) (by simp)) <|
    .head (.act (w := 0) (.allPassed rfl rfl) (by simp)) <|
    .head (.act (w := 0) (.recorded rfl) (by simp)) <|
    .head (.act (w := 0) (.returned rfl) (by simp)) <|
    .single (.act (w := 0) (.finished rfl rfl) fun _ => rfl), ?_, rfl, rfl⟩
  intro w
  cases w <;> rfl

/-- Two aggregators, one of which is replaced before four updates reach the registry out of order;
and the engine with one task, run by steps and by a worker that keeps metrics. -/
theorem boundaries_fire_once_primed :
    let pass : Pass Nat Nat := fun _ _ g => (.error (.panicked none), g)
    let r : Registry Nat Nat :=
      Registry.afterAll {} [⟨"sum", pass, 2⟩, ⟨"max", pass, 3⟩, ⟨"sum", pass, 1⟩]
    r.keys = ["sum", "max"] ∧
      (([3, 1, 4, 2].map fun count => ⟨count, {}, {}, {}⟩).foldl Registry.deliver r).entries.map
        (fun a => (a.key, a.interval, a.runs)) = [("sum", 1, 4), ("max", 3, 1)] ∧
      (∃ e', primed.start {} 2 = some (.ok (), e') ∧ e'.registry.entries.map (·.runs) = [1] ∧
        e'.metrics.passes.count "sum" = 1) ∧
      ∃ e', primed.Ends {} (.ok ()) e' ∧ e'.registry.entries.map (·.runs) = [1] ∧
        e'.metrics.passes.count "sum" = 1 := by
  intro pass r
  obtain ⟨hregistry, hengine⟩ := boundaries_fire_once Nat Nat Unit Unit
  obtain ⟨-, hstart, hends, -⟩ := hengine _ _ _ _ primed history_primed
  obtain ⟨hkeys, -, hfires⟩ := hregistry {} _ List.nodup_nil
  have hone {e' : Engine Nat Nat Unit Unit} (hfires : primed.FiresOnce e')
      (hcount : e'.updateCount = 1) : e'.registry.entries.map (·.runs) = [1] ∧
      e'.metrics.passes.count "sum" = 1 := by
    constructor
    · rw [hfires.runs, hcount]
      rfl
    · have hpasses := hfires.passes _ List.mem_cons_self
      rwa [hcount] at hpasses
  refine ⟨hkeys.trans ?_, ?_, ?_, ?_⟩
  · decide
  · rw [hfires.deliveries _ 4 (by decide)]
    simp [Registry.afterAll, Registry.after, Registry.register, Registry.put]
  · obtain ⟨e', hran, hcount⟩ : ∃ e', primed.start {} 2 = some (.ok (), e') ∧
        e'.updateCount = 1 := by
      have hiterate : primed.start {} 2 = (iterate {} 2 (primed.launch {})).map (close {}) := rfl
      rw [hiterate, launch_primed]
      exact ⟨_, rfl, rfl⟩
    exact ⟨e', hran, hone (hstart _ _ _ e' rfl (by decide) rfl hran).1 hcount⟩
  · obtain ⟨team, hworks, hover, hcount, habort⟩ := works_primed
    obtain ⟨own, hrun⟩ := Ledger.exists_run (b := Ledger.launch {} 1 primed) hworks
    have hclosed : primed.Ends {} _ _ := .closed rfl (by decide) rfl hrun hover 0
    rw [(close_answer _ _).mpr (by simp [habort])] at hclosed
    have hfires := (hends _ _ _ hclosed).2 (by rintro _ ⟨⟩)
    exact ⟨_, hclosed, hone hfires ((close_updateCount _ _).trans hcount)⟩

/-- If a second worker cannot be started, the metrics are dropped with the pass that the first one
has run. A start that panics, since there is no memory for its agenda, leaves the metrics as they
were, with the pass that was asked for before. -/
theorem exists_miscounted :
    (∃ e', History tally primed ∧ primed.Ends {} (.error (.construction "worker pool")) e' ∧
      e'.updateCount = 1 ∧ e'.registry.entries.map (·.runs) = [1] ∧
      e'.metrics.passes.count "sum" = 0) ∧
    ∃ e e', History crowded e ∧ e.Starts {} (.error .capacity) e' ∧ e'.updateCount = 0 ∧
      e'.registry.entries.map (·.interval) = [1] ∧ e'.metrics.passes.count "sum" = 1 := by
  constructor
  · obtain ⟨team, hworks, hover, hcount, -⟩ := works_primed
    obtain ⟨own, hrun⟩ := Ledger.exists_run (b := Ledger.launch {} 1 primed) hworks
    have hends : primed.Ends {} _ _ := .unspawned rfl (by decide) rfl hrun hover "worker pool"
    refine ⟨_, history_primed, hends, hcount, ?_, Counter.count_empty _⟩
    rw [hends.runs]
    dsimp only
    rw [hcount]
    rfl
  · let pass : Pass Nat Nat := fun _ _ g => (.ok (), g)
    have hvertex := moves_addVertex (e := crowded) 7 rfl rfl addVertex_tallied
    refine ⟨_, _, .tail (.tail (.tail (.single hvertex) (.call (.addAggregator "sum" pass 1)))
      (.call (.aggregateNow "sum"))) (.call (.setPolicy .roundRobin)), .cramped rfl (by decide) rfl,
        rfl, rfl, ?_⟩
    exact Counter.count_add ..

end Engine

end VertexPrograms
