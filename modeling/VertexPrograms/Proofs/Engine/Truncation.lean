import VertexPrograms.Proofs.Engine.Stages
import VertexPrograms.Proofs.Scheduler.Likeness

/-!
# Failures that end a run only cut it short

Two engines that differ in nothing but whether failures are to end a run do the same until the first
failure. Where there is none, they do the same to the end. Otherwise the run that is to end there
stops after that update and the passes that were due with it, as the other run then is, but for its
pending tasks, which are forgotten.
-/

namespace VertexPrograms

variable {V E M P : Type}

namespace Engine

variable {host : Host} {e e' : Engine V E M P} {t : Task P}

/-- The engine told whether failures are to end a run. -/
def aborting (stop : Bool) (e : Engine V E M P) : Engine V E M P :=
  { e with config := { e.config with abortOnError := stop } }

/-- The stage of an engine that is told whether failures are to end a run. -/
def Stage.aborting (stop : Bool) (s : Stage V E M P) : Stage V E M P :=
  { s with engine := s.engine.aborting stop }

/-- An engine that is set as it was is unchanged. -/
theorem aborting_of_eq {stop : Bool} (h : e.config.abortOnError = stop) : e.aborting stop = e := by
  subst h
  rfl

theorem aborting_launch_aborting (stop stop' : Bool) (host : Host) (e : Engine V E M P) :
    ((e.aborting stop).launch host).aborting stop' = (e.aborting stop').launch host := rfl

/-- What holds between operations holds whatever failures are to do. -/
theorem Lawful.aborting (h : e.Lawful) (stop : Bool) : (e.aborting stop).Lawful where
  valid := h.valid
  created := h.created
  begun := h.begun
  tasks := h.tasks
  destroyed hphase :=
    have hblank := h.destroyed hphase
    ⟨hblank.store, hblank.globals, hblank.registry, hblank.tasks⟩

/-- What comes of a task does not depend on what failures are to do. -/
theorem round_aborting (stop : Bool) (host : Host) (e : Engine V E M P) (t : Task P) :
    (e.aborting stop).round host t = e.round host t := by
  rw [round, round, updated_eq, updated_eq]
  rfl

/-- Running a task differs only in that failures, if there are any, abort what is pending. -/
theorem execute_aborting (h : e.config.abortOnError = false) (host : Host) (t : Task P) :
    (e.aborting true).execute host t =
      { (e.execute host t).aborting true with
        scheduler := (e.execute host t).scheduler.haltIf !(e.round host t).failures.isEmpty } := by
  have hscheduler : (e.execute host t).scheduler =
      (e.scheduler.pushAll (e.published t)).complete := by
    rw [execute_scheduler, h]
    rfl
  rw [hscheduler, execute_eq, round_aborting, execute_eq, updated_eq, updated_eq]
  rfl

/-- The engine with a run that failures have ended. -/
def halted (e : Engine V E M P) : Engine V E M P :=
  { e.aborting true with scheduler := e.scheduler.abort }

/-- A round without failures does not depend on the setting. -/
theorem execute_aborting_of_clean (h : e.config.abortOnError = false)
    (hclean : (e.round host t).failures = []) :
    (e.aborting true).execute host t = (e.execute host t).aborting true := by
  rw [execute_aborting h, hclean]
  rfl

/-- A round with failures is halted if they are to end the run. -/
theorem execute_aborting_of_failure (h : e.config.abortOnError = false)
    (hfailures : (e.round host t).failures ≠ []) :
    (e.aborting true).execute host t = (e.execute host t).halted := by
  have hstop : (!(e.round host t).failures.isEmpty) = true := by simpa using hfailures
  rw [execute_aborting h, hstop]
  rfl

/-- Until a failure the runs come through the same stages. -/
private theorem Comes.aborting {ss : List (Stage V E M P)} (h : Comes host e ss e')
    (he : e.config.abortOnError = false) (hss : ∀ s ∈ ss, (s.round host).failures = []) :
    Comes host (e.aborting true) (ss.map (Stage.aborting true)) (e'.aborting true) := by
  induction h with
  | here => exact .here
  | @on ss e' t scheduler hcomes hnext ih =>
    have he' : e'.config.abortOnError = false := hcomes.config ▸ he
    have hclean : (Engine.round host { e' with scheduler } t).failures = [] :=
      hss ⟨{ e' with scheduler }, t⟩ (by simp)
    have hbefore := ih fun s hs => hss s (List.mem_append_left _ hs)
    have hnext' : (e'.aborting true).scheduler.next 0 = (.task t, scheduler) := hnext
    have hon := hbefore.on hnext'
    have hexecute : Engine.execute host { e'.aborting true with scheduler } t =
        (Engine.execute host { e' with scheduler } t).aborting true :=
      execute_aborting_of_clean (e := { e' with scheduler }) he' hclean
    rw [hexecute] at hon
    rw [List.map_append]
    exact hon

/-- At the first failure the run that is to end halts. -/
private theorem Comes.halted {first : List (Stage V E M P)} {s : Stage V E M P}
    (h : Comes host e (first ++ [s]) e') (he : e.config.abortOnError = false)
    (hfirst : ∀ r ∈ first, (r.round host).failures = []) (hs : (s.round host).failures ≠ []) :
    Comes host (e.aborting true) ((first ++ [s]).map (Stage.aborting true)) e'.halted := by
  obtain ⟨rfl, before, t, scheduler, hcomes, hnext, rfl⟩ := h.of_concat
  have hbefore : before.config.abortOnError = false := hcomes.config ▸ he
  have hnext' : (before.aborting true).scheduler.next 0 = (.task t, scheduler) := hnext
  have hon := (hcomes.aborting he hfirst).on hnext'
  have hexecute : Engine.execute host { before.aborting true with scheduler } t =
      (Engine.execute host { before with scheduler } t).halted :=
    execute_aborting_of_failure (e := { before with scheduler }) hbefore hs
  rw [hexecute] at hon
  rw [List.map_append]
  exact hon

/-- What comes of the tasks is the same. -/
theorem map_round_aborting (stop : Bool) (ss : List (Stage V E M P)) :
    (ss.map (Stage.aborting stop)).map (Stage.round host) = ss.map (Stage.round host) := by
  rw [List.map_map]
  exact List.map_congr_left fun s _ => round_aborting stop host s.engine s.task

/-- A run without failures comes to the same end. -/
private theorem iterate_aborting {steps : Nat} (he : e.config.abortOnError = false)
    (hlast : iterate host steps e = some e')
    (hclean : ∀ s ∈ stages host steps e, (s.round host).failures = []) :
    rounds host steps (e.aborting true) = rounds host steps e ∧
      iterate host steps (e.aborting true) = some (e'.aborting true) := by
  obtain ⟨last, _, scheduler, hcomes, hnext, hnot, rfl, hlt⟩ := comes_of_iterate hlast
  obtain ⟨k, hk⟩ : ∃ k, (stages host steps e).length + (k + 1) = steps :=
    ⟨steps - (stages host steps e).length - 1, by omega⟩
  obtain ⟨hstages, hiterate⟩ := (hcomes.aborting he hclean).stages (k + 1)
  have hnext' : (last.aborting true).scheduler.next 0 = (_, scheduler) := hnext
  rw [List.length_map, hk] at hstages hiterate
  rw [stages_of_not_task host (k + 1) hnext' hnot, List.append_nil] at hstages
  rw [iterate_of_not_task host k hnext' hnot] at hiterate
  refine ⟨?_, hiterate⟩
  rw [rounds_eq, rounds_eq, hstages, map_round_aborting]

/-- A run that halts at its first failure comes to an end there. -/
private theorem iterate_halted {first : List (Stage V E M P)} {s : Stage V E M P}
    (h : Comes host e (first ++ [s]) (s.after host)) (he : e.config.abortOnError = false)
    (hfirst : ∀ r ∈ first, (r.round host).failures = []) (hs : (s.round host).failures ≠ [])
    {steps : Nat} (hsteps : first.length + 1 < steps) :
    rounds host steps (e.aborting true) = (first ++ [s]).map (Stage.round host) ∧
      iterate host steps (e.aborting true) = some (s.after host).halted := by
  obtain ⟨k, rfl⟩ : ∃ k, steps = (first ++ [s]).length + (k + 1) :=
    ⟨steps - first.length - 2, by simp; omega⟩
  obtain ⟨hstages, hiterate⟩ := (h.halted he hfirst hs).stages (k + 1)
  have hnext : (s.after host).halted.scheduler.next 0 =
      (.finished, (s.after host).halted.scheduler) := rfl
  rw [List.length_map] at hstages hiterate
  rw [stages_of_not_task host (k + 1) hnext (by simp), List.append_nil] at hstages
  rw [iterate_of_not_task host k hnext (by simp)] at hiterate
  refine ⟨?_, hiterate⟩
  rw [rounds_eq, hstages, map_round_aborting]

end Engine

namespace Round

/-- The failures at the number of a round are its own. -/
theorem filter_failures {qs : List (Round P)} (h : (qs.map (·.number)).Nodup) {q : Round P}
    (hq : q ∈ qs) : (qs.flatMap failures).filter (·.atUpdate == q.number) = q.failures := by
  have hown (r : Round P) : r.failures.filter (·.atUpdate == q.number) =
      if r.number = q.number then r.failures else [] := by
    split
    · rename_i hr
      exact List.filter_eq_self.mpr fun f hf => by simp [atUpdate_of_mem hf, hr]
    · rename_i hr
      exact List.filter_eq_nil_iff.mpr fun f hf => by simp [atUpdate_of_mem hf, hr]
  induction qs with
  | nil => cases hq
  | cons r qs ih =>
    obtain ⟨hr, hnodup⟩ := List.nodup_cons.mp h
    rw [List.flatMap_cons, List.filter_append, hown]
    rcases List.mem_cons.mp hq with rfl | hq
    · have hothers : (qs.flatMap failures).filter (·.atUpdate == q.number) = [] := by
        refine List.filter_eq_nil_iff.mpr fun f hf => ?_
        obtain ⟨r', hr', hf⟩ := List.mem_flatMap.mp hf
        have hne : r'.number ≠ q.number := fun heq => hr (List.mem_map.mpr ⟨r', hr', heq⟩)
        simp [atUpdate_of_mem hf, hne]
      rw [if_pos rfl, hothers, List.append_nil]
    · have hne : r.number ≠ q.number := fun heq => hr (List.mem_map.mpr ⟨q, hq, heq.symm⟩)
      rw [if_neg hne, List.nil_append, ih hnodup hq]

end Round

namespace Engine

variable {host : Host} {e e' : Engine V E M P} {answer : Except Error Unit} {steps : Nat}

/-- A run that failures have ended is closed with the first of them. -/
theorem close_halted {f : Failure} {fs : List Failure} (h : Failure.report e.failures = f :: fs)
    (host : Host) : e.halted.close host = (.error (.execution f.describe), { e.halted with
      phase := .completed
      failures := f :: fs
      metrics := { e.metrics with
        workers := e.config.resolvedWorkers host.processors
        started := true
        lastUpdateCount := e.updateCount }
      scheduler := e.halted.scheduler.clear }) := by
  have hreport : Failure.report e.halted.failures = f :: fs := h
  have hstop : e.halted.config.abortOnError = true := rfl
  simp only [close, hreport, hstop]
  rfl

/-- What a run leaves that ends with the given stage, since something failed there: the data, the
globals, the books and the failures are those just after the stage, and nothing is pending; and the
engine can run again. -/
structure CutAfter (host : Host) (s : Stage V E M P) (answer : Except Error Unit)
    (e : Engine V E M P) : Prop where
  store : e.store = (s.after host).store
  globals : e.globals = (s.after host).globals
  memory : e.memory = (s.after host).memory
  registry : e.registry = (s.after host).registry
  failures : e.failures = (s.round host).failures
  answer : ∃ f fs, (s.round host).failures = f :: fs ∧ answer = .error (.execution f.describe)
  count : e.updateCount = (s.round host).number
  metrics : e.metrics = { (s.after host).metrics with
    workers := e.config.resolvedWorkers host.processors
    started := true
    lastUpdateCount := (s.round host).number }
  idle : e.scheduler.size = 0
  completed : e.phase = .completed
  again : ∃ e', e.start host 1 = some (.ok (), e')
  /-- A task that is scheduled then is the first of the next run. -/
  anew : ∀ raw v program priority, e.locate raw = .ok v →
    ∃ e', e.schedule raw program priority = (.ok (), e') ∧
      (stages host 1 (e'.launch host)).map (·.task) = [⟨v, priority, program⟩]

/-- The first stage of a run is that of the one task there is. -/
theorem stages_of_tasks_eq_singleton {t : Task P} (hsound : e.scheduler.Sound)
    (htasks : e.scheduler.tasks = [t]) (host : Host) :
    (stages host 1 (e.launch host)).map (·.task) = [t] := by
  have hlaunch : (e.launch host).scheduler.tasks = [t] := htasks
  rcases (hsound.prepare e.config.policy (e.config.resolvedWorkers host.processors)).next_cases
    rfl 0 with
    ⟨hnil, -⟩ | ⟨v, p, agenda, hp, -, -, -, hnext⟩
  · rw [Scheduler.tasks_eq] at hlaunch
    rw [show (e.launch host).scheduler.inOrder = [] from hnil] at hlaunch
    cases hlaunch
  · have hmem : Scheduler.taskOf (v, p) ∈ (e.launch host).scheduler.tasks := by
      rw [Scheduler.tasks_eq]
      exact List.mem_map_of_mem (Scheduler.mem_inOrder.mpr hp)
    have heq : Scheduler.taskOf (v, p) = t := List.mem_singleton.mp (hlaunch ▸ hmem)
    rw [stages_of_task host 0 hnext, List.map_cons, heq]
    rfl

/-- After a run that left nothing pending, another can be started, with the tasks that are scheduled
for it. -/
private theorem restarts (h : e.Lawful) (hworkers : e.config.resolvedWorkers host.processors = 1)
    (hphase : e.phase = .completed) (hidle : e.scheduler.size = 0) :
    (∃ e', e.start host 1 = some (.ok (), e')) ∧
      ∀ raw v program priority, e.locate raw = .ok v →
        ∃ e', e.schedule raw program priority = (.ok (), e') ∧
          (stages host 1 (e'.launch host)).map (·.task) = [⟨v, priority, program⟩] := by
  have htasks := Scheduler.size_eq_zero.mp hidle
  constructor
  · obtain ⟨e', hstart, -⟩ := start_of_tasks_eq_nil host h.tasks.sound htasks (by rw [hphase]; rfl)
      (Nat.ne_of_gt (h.nonempty hphase)) (hasRoom_of_one hworkers)
    exact ⟨e', hstart⟩
  · intro raw v program priority hv
    have hpushed : (e.scheduler.push ⟨v, priority, program⟩).2.tasks =
        [⟨v, priority, program⟩] := by
      rw [h.tasks.sound.tasks_push, htasks]
      rfl
    refine ⟨_, schedule_of_locate (by rw [hphase]; rfl) hv, ?_⟩
    exact stages_of_tasks_eq_singleton (h.tasks.sound.push _) hpushed host

/-- Without failures the runs are the same. -/
private theorem start_of_clean (hsound : e.scheduler.Sound)
    (hworkers : e.config.resolvedWorkers host.processors = 1) (hready : e.phase.isReady = true)
    (hcount : e.store.vertexCount ≠ 0)
    (hstart : (e.aborting false).start host steps = some (answer, e')) (hclean : e'.failures = []) :
    answer = .ok () ∧ (e.aborting true).start host steps = some (.ok (), e'.aborting true) ∧
      rounds host steps ((e.aborting true).launch host) =
        rounds host steps ((e.aborting false).launch host) := by
  have hroom : (e.aborting true).hasRoom host = true := hasRoom_of_one hworkers
  obtain ⟨last, hlast, hclose, haccount, hbalanced⟩ :=
    exists_account (e := e.aborting false) hsound hworkers hready hcount hstart
  have hflat := hbalanced.failures.symm.trans hclean
  have hnone : last.failures = [] := haccount.failures.trans hflat
  rw [rounds_eq] at hflat
  obtain ⟨hrounds, hiterate⟩ := iterate_aborting rfl hlast (by simpa using hflat)
  rw [aborting_launch_aborting] at hrounds hiterate
  obtain ⟨rfl, rfl⟩ := Prod.mk.inj ((close_of_failures hnone host).symm.trans hclose)
  refine ⟨rfl, ?_, hrounds⟩
  have hnone' : (last.aborting true).failures = [] := hnone
  have hstart' : (e.aborting true).start host steps = _ := start_eq hready hcount hroom
  rw [hstart', hiterate, Option.map_some, close_of_failures hnone']
  rfl

/-- At the first stage that fails, the failures are its own, and its number is that of the stages so
far. -/
private theorem of_first_failure (hsound : e.scheduler.Sound) {first rest : List (Stage V E M P)}
    {s : Stage V E M P} (hstages : stages host steps (e.launch host) = first ++ s :: rest)
    (hfirst : ∀ r ∈ first, (r.round host).failures = []) :
    (s.round host).number = first.length + 1 ∧
    (s.after host).failures = (s.round host).failures := by
  obtain ⟨_, -, hcomes, -⟩ := comes_through hstages
  have haccount := (Account.launch host hsound).comes hcomes
  constructor
  · rw [← Stage.after_updateCount, haccount.count]
    simp
  · rw [haccount.failures]
    simpa using hfirst

/-- Up to the first failure the run is the same, and there it ends. -/
private theorem start_of_failure (h : e.Lawful)
    (hworkers : e.config.resolvedWorkers host.processors = 1) (hready : e.phase.isReady = true)
    (hcount : e.store.vertexCount ≠ 0) {first rest : List (Stage V E M P)} {s : Stage V E M P}
    (hstages : stages host steps ((e.aborting false).launch host) = first ++ s :: rest)
    (hfirst : ∀ r ∈ first, (r.round host).failures = []) (hs : (s.round host).failures ≠ [])
    {steps' : Nat} (hsteps : first.length + 1 < steps') :
    ∃ answer e', (e.aborting true).start host steps' = some (answer, e') ∧
      rounds host steps' ((e.aborting true).launch host) =
        (rounds host steps ((e.aborting false).launch host)).take (first.length + 1) ∧
      CutAfter host s answer e' := by
  obtain ⟨_, -, hcomes, -⟩ := comes_through hstages
  obtain ⟨hrounds, hiterate⟩ := iterate_halted hcomes rfl hfirst hs hsteps
  rw [aborting_launch_aborting] at hrounds hiterate
  have htake : (rounds host steps ((e.aborting false).launch host)).take (first.length + 1) =
      (first ++ [s]).map (Stage.round host) := by
    rw [rounds_eq, hstages, List.append_cons, ← List.map_take, List.take_left' (by simp)]
  obtain ⟨-, hfailures⟩ := of_first_failure (e := e.aborting false) h.tasks.sound hstages hfirst
  obtain ⟨f, fs, hffs⟩ := List.exists_cons_of_ne_nil hs
  have hreport : Failure.report (s.after host).failures = f :: fs := by
    have hone : ([s.round host].map (·.number)).Pairwise (· < ·) := List.pairwise_singleton _ _
    rw [hfailures, ← hffs]
    simpa using Round.report_failures hone
  have hstart : (e.aborting true).start host steps' = some ((s.after host).halted.close host) := by
    have hstart : (e.aborting true).start host steps' = _ :=
      start_eq hready hcount (hasRoom_of_one hworkers)
    rw [hstart, hiterate]
    rfl
  rw [close_halted hreport host] at hstart
  have hlawful := (h.aborting true).moves (.start (starts_of_start hstart))
  have hworkers' : (s.after host).config.resolvedWorkers host.processors = 1 := by
    rw [hcomes.config]
    exact hworkers
  have hidle : (s.after host).halted.scheduler.clear.size = 0 := Std.ExtTreeMap.size_empty
  obtain ⟨hagain, hanew⟩ := restarts hlawful hworkers' rfl hidle
  exact ⟨_, _, hstart, hrounds.trans htake.symm, {
    store := rfl
    globals := rfl
    memory := rfl
    registry := rfl
    failures := hffs.symm
    answer := ⟨f, fs, hffs, rfl⟩
    count := Stage.after_updateCount host s
    metrics := by rw [← Stage.after_updateCount]; rfl
    idle := hidle
    completed := rfl
    again := hagain
    anew := hanew }⟩

/-- A list with an element that has a property has a first one. -/
private theorem exists_first {α : Type} {p : α → Prop} {l : List α} (h : ¬∀ a ∈ l, p a) :
    ∃ first a rest, l = first ++ a :: rest ∧ (∀ b ∈ first, p b) ∧ ¬p a := by
  induction l with
  | nil => exact absurd (by simp) h
  | cons a l ih =>
    by_cases ha : p a
    · obtain ⟨first, b, rest, rfl, hfirst, hb⟩ := ih fun hl => h (by simpa [ha] using hl)
      exact ⟨a :: first, b, rest, rfl, by simpa [ha] using hfirst, hb⟩
    · exact ⟨[], a, l, rfl, by simp, ha⟩

/-- Whether failures are to end a run makes no difference to a run by one worker before the first of
them. A run without failures comes to the same end, round by round, with the same answer. Otherwise
there is a first stage with failures. The run that they are to end comes through the same stages up
to this one, and ends as it leaves the engine, with the failures that the other run has at its
number, the first of them as its answer, nothing pending, and ready to run again. -/
theorem aborting_truncates {config : Config} {processors : Nat} {programs : P → Program V E M P}
    {memory : M} (h : History (Engine.new config processors programs memory) e)
    (hworkers : e.config.resolvedWorkers host.processors = 1) (hready : e.phase.isReady = true)
    (hcount : e.store.vertexCount ≠ 0) (steps : Nat) :
    (∀ answer e', (e.aborting false).start host steps = some (answer, e') → answer = .ok () ∧
      (e'.failures = [] → (e.aborting true).start host steps = some (.ok (), e'.aborting true) ∧
        rounds host steps ((e.aborting true).launch host) =
          rounds host steps ((e.aborting false).launch host)) ∧
      (e'.failures ≠ [] → ∃ first s rest, stages host steps ((e.aborting false).launch host) =
        first ++ s :: rest ∧ (∀ r ∈ first, (r.round host).failures = []) ∧
          (s.round host).failures ≠ [] ∧
        e'.failures.filter (·.atUpdate == first.length + 1) = (s.round host).failures)) ∧
    ∀ first s rest, stages host steps ((e.aborting false).launch host) = first ++ s :: rest →
      (∀ r ∈ first, (r.round host).failures = []) → (s.round host).failures ≠ [] →
      (s.round host).number = first.length + 1 ∧ (s.after host).failures = (s.round host).failures ∧
      ∀ steps' > first.length + 1, ∃ answer e', (e.aborting true).start host steps' =
        some (answer, e') ∧ rounds host steps' ((e.aborting true).launch host) =
          (rounds host steps ((e.aborting false).launch host)).take (first.length + 1) ∧
        CutAfter host s answer e' := by
  have hlawful := (Lawful.new config processors programs memory).history h
  constructor
  · intro answer e' hstart
    obtain ⟨last, hlast, hclose, haccount, hbalanced⟩ :=
      exists_account (e := e.aborting false) hlawful.tasks.sound hworkers hready hcount hstart
    have hconfig : last.config.abortOnError = false := by
      rw [haccount.config]
      rfl
    have hanswer := (close_answer host last).mpr (by rw [hconfig, Bool.false_and])
    rw [hclose] at hanswer
    refine ⟨hanswer, fun hclean => ?_, fun hfailed => ?_⟩
    · exact (start_of_clean hlawful.tasks.sound hworkers hready hcount hstart hclean).2
    · have hfailures := hbalanced.failures
      rw [rounds_eq] at hfailures
      obtain ⟨first, s, rest, hstages, hfirst, hs⟩ :=
        exists_first (p := fun s : Stage V E M P => (s.round host).failures = [])
          fun hclean => hfailed (hfailures.trans (by simpa using hclean))
      refine ⟨first, s, rest, hstages, hfirst, hs, ?_⟩
      have hnodup := haccount.numbers ▸ List.nodup_range'
      have hmem : s.round host ∈ rounds host steps ((e.aborting false).launch host) := by
        rw [rounds_eq, hstages]
        simp
      obtain ⟨hnumber, -⟩ :=
        of_first_failure (e := e.aborting false) hlawful.tasks.sound hstages hfirst
      rw [hbalanced.failures, ← hnumber]
      exact Round.filter_failures hnodup hmem
  · intro first s rest hstages hfirst hs
    obtain ⟨hnumber, hfailures⟩ :=
      of_first_failure (e := e.aborting false) hlawful.tasks.sound hstages hfirst
    exact ⟨hnumber, hfailures, fun steps' hsteps =>
      start_of_failure hlawful hworkers hready hcount hstages hfirst hs hsteps⟩

/-- Where the first of three updates fails, the run that this is to end has one update, and the text
of the failure. The other run has all three. -/
theorem aborting_truncates_burdened :
    (∃ e', (burdened.aborting true).start {} 5 =
      some (.error (.execution "ask on vertex 7: no"), e') ∧ e'.updateCount = 1 ∧
      e'.scheduler.size = 0) ∧
    ∃ e', (burdened.aborting false).start {} 4 = some (.ok (), e') ∧ e'.updateCount = 3 := by
  have hsame : burdened.aborting false = burdened := aborting_of_eq rfl
  have hworkers : burdened.config.resolvedWorkers ({} : Host).processors = 1 := rfl
  obtain ⟨hgoes, hcut⟩ := aborting_truncates history_burdened hworkers rfl (by decide) 4
  constructor
  · obtain ⟨s, rest, hstages,
        hfailures⟩ : ∃ (s : Stage Nat Nat Unit Unit) (rest : List (Stage Nat Nat Unit Unit)),
          stages {} 4 (burdened.launch {}) = [] ++ s :: rest ∧
          (s.round {}).failures = [⟨.update 7 "ask", (Fault.reported ["no"]).message, 1⟩] := by
      rw [launch_burdened]
      refine ⟨_, _, rfl, ?_⟩
      rfl
    have hfails : (s.round {}).failures ≠ [] := by rw [hfailures]; exact List.cons_ne_nil _ _
    rw [hsame] at hcut
    obtain ⟨hnumber, -, hstart⟩ := hcut [] s rest hstages (List.forall_mem_nil _) hfails
    obtain ⟨answer, e', hstart, -, hcut⟩ := hstart 5 (by decide)
    obtain ⟨f, fs, hffs, rfl⟩ := hcut.answer
    obtain ⟨rfl, -⟩ := List.cons.inj (hfailures.symm.trans hffs)
    exact ⟨e', hstart, hcut.count.trans hnumber, hcut.idle⟩
  · obtain ⟨answer, e', hstart, hcount⟩ : ∃ answer e', burdened.start {} 4 = some (answer, e') ∧
        e'.updateCount = 3 := by
      have hstart : burdened.start {} 4 = (iterate {} 4 (burdened.launch {})).map (close {}) := rfl
      rw [hstart, launch_burdened]
      exact ⟨_, _, rfl, rfl⟩
    rw [← hsame] at hstart
    obtain ⟨rfl, -⟩ := hgoes answer e' hstart
    exact ⟨e', hstart, hcount⟩

end Engine

end VertexPrograms
