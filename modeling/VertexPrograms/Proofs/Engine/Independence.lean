import VertexPrograms.Proofs.Engine.Stages
import VertexPrograms.Proofs.Graph.Outline
import VertexPrograms.Proofs.Scheduler.Likeness

/-!
# Runs do not depend on the past

Two engines agree if they have the same configuration, programs, graph, data, globals, aggregators
and pending tasks. However each of them came about, by operations and runs, completed or aborted,
with any number of workers, a run by one worker takes the same course on both and leaves engines
that agree. What the past has left behind beside that never shows: the numbers of the tasks, stale
entries, the policy and the shares of an earlier run, how far it came and how it ended, its counts,
failures and metrics, and whether the graph is frozen.
-/

namespace VertexPrograms

variable {V E M P : Type}

namespace Registration

/-- The registration without its number of passes. -/
def bare (a : Registration V E) : Registration V E := { a with runs := 0 }

@[simp] theorem bare_ran (a : Registration V E) (n : Nat) : (a.ran n).bare = a.bare := rfl

end Registration

namespace Registry

/-- The registered aggregators, in order, without the numbers of their passes. -/
def bare (r : Registry V E) : List (Registration V E) := r.entries.map Registration.bare

/-- What the passes that are due leave of the globals, and what comes of them, does not depend on
earlier ones. -/
theorem onUpdate_bare (r : Registry V E) (count : Nat) (t : Topology) (c : Cells V E)
    (g : Globals) : (r.onUpdate count t c g).globals =
      ((⟨r.bare⟩ : Registry V E).onUpdate count t c g).globals ∧
      (r.onUpdate count t c g).outcomes =
        ((⟨r.bare⟩ : Registry V E).onUpdate count t c g).outcomes := by
  obtain ⟨entries⟩ := r
  simp only [onUpdate, bare]
  induction entries generalizing g with
  | nil => exact ⟨rfl, rfl⟩
  | cons a entries ih =>
    by_cases hdue : a.isDue count = true
    · have hbare : a.bare.isDue count = true := hdue
      obtain ⟨hglobals, houtcomes⟩ := ih (a.pass t c g).2
      simp only [List.map_cons, runWhere, if_pos hdue, if_pos hbare]
      exact ⟨hglobals, congrArg _ houtcomes⟩
    · have hbare : ¬a.bare.isDue count = true := hdue
      simp only [List.map_cons, runWhere, if_neg hdue, if_neg hbare]
      exact ih g

/-- How often passes have run does not show in the bare registry. -/
theorem bare_map_ran (entries : List (Registration V E)) (n : Registration V E → Nat) :
    (⟨entries.map fun a => a.ran (n a)⟩ : Registry V E).bare = (⟨entries⟩ : Registry V E).bare := by
  simp [bare]

end Registry

namespace Engine

variable {host : Host} {e₁ e₂ e₁' e₂' : Engine V E M P} {t : Task P}

/-- The engines have the same configuration, programs, graph with its data, globals and aggregators.
-/
structure SameBase (e₁ e₂ : Engine V E M P) : Prop where
  config : e₁.config = e₂.config
  programs : e₁.programs = e₂.programs
  memory : e₁.memory = e₂.memory
  /-- The identifiers and the edges, in order. -/
  outline : e₁.store.topology.outline = e₂.store.topology.outline
  cells : e₁.store.cells = e₂.store.cells
  globals : e₁.globals = e₂.globals
  /-- Keys, intervals and passes, in order. -/
  registry : e₁.registry.bare = e₂.registry.bare

/-- Beside that, the same tasks are pending, in the same order. -/
structure Agree (e₁ e₂ : Engine V E M P) : Prop extends SameBase e₁ e₂ where
  tasks : e₁.scheduler.tasks = e₂.scheduler.tasks

/-- What is kept of a run is the same. -/
structure SameBooks (e₁ e₂ : Engine V E M P) : Prop where
  updateCount : e₁.updateCount = e₂.updateCount
  failures : e₁.failures = e₂.failures
  metrics : e₁.metrics = e₂.metrics

/-- During a run the engines cannot be told apart. -/
structure Alike (e₁ e₂ : Engine V E M P) : Prop extends SameBase e₁ e₂, SameBooks e₁ e₂ where
  topology : e₁.store.topology = e₂.store.topology
  scheduler : e₁.scheduler.Alike e₂.scheduler

namespace Agree

/-- Engines that agree have as many vertices. -/
theorem vertexCount (h : e₁.Agree e₂) : e₁.store.vertexCount = e₂.store.vertexCount :=
  congrArg (·.ids.length) h.outline

/-- Lawful engines that agree have the same graph. -/
theorem topology (h : e₁.Agree e₂) (h₁ : e₁.Lawful) (h₂ : e₂.Lawful) :
    e₁.store.topology = e₂.store.topology :=
  h₁.valid.topology.eq_of_outline h₂.valid.topology h.outline

/-- Engines that agree do so after the same task has been scheduled on both. -/
theorem schedule (h : e₁.Agree e₂) (h₁ : e₁.Lawful) (h₂ : e₂.Lawful)
    (hidle₁ : e₁.phase.isIdle = true) (hidle₂ : e₂.phase.isIdle = true) {raw : Int}
    {v : VertexIndex} (hv : e₁.locate raw = .ok v) (program : P) (priority : Priority) :
    ((Engine.schedule raw program priority e₁).2).Agree
      (Engine.schedule raw program priority e₂).2 := by
  have hv₂ : e₂.locate raw = .ok v := by rwa [locate, ← h.topology h₁ h₂]
  rw [schedule_of_locate hidle₁ hv, schedule_of_locate hidle₂ hv₂]
  exact ⟨⟨h.config, h.programs, h.memory, h.outline, h.cells, h.globals, h.registry⟩,
    h₁.tasks.sound.tasks_push_congr h₂.tasks.sound h.tasks _⟩

/-- What is forgotten when a run begins is all that may differ. -/
theorem launch (h : e₁.Agree e₂) (h₁ : e₁.Lawful) (h₂ : e₂.Lawful) (host : Host) :
    (e₁.launch host).Alike (e₂.launch host) := by
  refine ⟨⟨h.config, h.programs, h.memory, h.outline, h.cells, h.globals, h.registry⟩,
    ⟨rfl, rfl, rfl⟩, ?_, ?_⟩
  · exact h.topology h₁ h₂
  · have hprepared := h₁.tasks.sound.alike_prepare h₂.tasks.sound h.tasks e₂.config.policy
      (e₂.config.resolvedWorkers host.processors)
    rw [Engine.launch, Engine.launch, h.config]
    exact hprepared

end Agree

namespace Alike

/-- An update goes alike. -/
theorem ending (h : e₁.Alike e₂) (t : Task P) : e₁.ending t = e₂.ending t := by
  simp only [Engine.ending, scopeOf, h.config, h.programs, h.topology, h.cells, h.globals, h.memory]

/-- Engines that are alike publish the same tasks. -/
theorem published (h : e₁.Alike e₂) (t : Task P) : e₁.published t = e₂.published t := by
  rw [Engine.published, Engine.published, h.ending]

/-- An update leaves them alike. -/
theorem updated (h : e₁.Alike e₂) (host : Host) (t : Task P) :
    (e₁.updated host t).Alike (e₂.updated host t) := by
  rw [updated_eq, updated_eq, h.ending, h.published, h.updateCount, h.metrics, h.programs]
  exact ⟨⟨h.config, rfl, rfl, h.outline, rfl, rfl, h.registry⟩, ⟨rfl, h.failures, rfl⟩, h.topology,
    (h.scheduler.pushAll _).complete⟩

/-- The passes that are due go alike. -/
theorem passed (h : e₁.Alike e₂) :
    let passed₁ := e₁.registry.onUpdate e₁.updateCount e₁.store.topology e₁.store.cells e₁.globals
    let passed₂ := e₂.registry.onUpdate e₂.updateCount e₂.store.topology e₂.store.cells e₂.globals
    passed₁.globals = passed₂.globals ∧ passed₁.outcomes = passed₂.outcomes := by
  dsimp only
  rw [h.updateCount, h.topology, h.cells, h.globals]
  obtain ⟨hglobals₁, houtcomes₁⟩ :=
    e₁.registry.onUpdate_bare e₂.updateCount e₂.store.topology e₂.store.cells e₂.globals
  obtain ⟨hglobals₂, houtcomes₂⟩ :=
    e₂.registry.onUpdate_bare e₂.updateCount e₂.store.topology e₂.store.cells e₂.globals
  rw [hglobals₁, houtcomes₁, hglobals₂, houtcomes₂, h.registry]
  exact ⟨rfl, rfl⟩

/-- The same comes of a task. -/
theorem round (h : e₁.Alike e₂) (host : Host) (t : Task P) : e₁.round host t = e₂.round host t := by
  have houtcomes := (h.updated host t).passed.2
  simp only [Engine.round, h.updateCount, h.programs, h.ending, h.published, h.scheduler.created,
    houtcomes, scopeOf, h.topology, h.config]

/-- A task leaves engines that still cannot be told apart. -/
theorem execute (h : e₁.Alike e₂) (host : Host) (t : Task P) :
    (e₁.execute host t).Alike (e₂.execute host t) := by
  have hupdated := h.updated host t
  have hhalted : (e₁.execute host t).scheduler.Alike (e₂.execute host t).scheduler := by
    rw [execute_eq, execute_eq]
    dsimp only
    rw [h.round, h.config, Scheduler.haltIf, Scheduler.haltIf]
    split
    · exact hupdated.scheduler.abort
    · exact hupdated.scheduler
  have hregistry (e : Engine V E M P) : (e.execute host t).registry.bare = e.registry.bare := by
    rw [execute_eq]
    exact Registry.bare_map_ran _ _
  refine ⟨⟨?_, ?_, ?_, ?_, ?_, ?_, ?_⟩, ⟨?_, ?_, ?_⟩, ?_, hhalted⟩
  case refine_7 => rw [hregistry, hregistry, h.registry]
  all_goals rw [execute_eq, execute_eq]
  · exact hupdated.config
  · exact hupdated.programs
  · exact hupdated.memory
  · exact hupdated.outline
  · exact hupdated.cells
  · exact hupdated.passed.1
  · exact hupdated.updateCount
  · dsimp only
    rw [h.failures, h.round]
  · dsimp only
    rw [hupdated.metrics, h.metrics, h.round]
  · exact hupdated.topology

/-- The same task is handed out, if any. -/
theorem next (h : e₁.Alike e₂) : (e₁.scheduler.next 0).1 = (e₂.scheduler.next 0).1 ∧
    ({ e₁ with scheduler := (e₁.scheduler.next 0).2 } : Engine V E M P).Alike
      { e₂ with scheduler := (e₂.scheduler.next 0).2 } := by
  obtain ⟨hanswer, hscheduler⟩ := h.scheduler.next 0
  exact ⟨hanswer, ⟨h.config, h.programs, h.memory, h.outline, h.cells, h.globals, h.registry⟩,
    ⟨h.updateCount, h.failures, h.metrics⟩, h.topology, hscheduler⟩

/-- A run takes the same course, and if it ends on one of the engines, it does on the other. -/
theorem iterate (h : e₁.Alike e₂) (host : Host) (steps : Nat) :
    rounds host steps e₁ = rounds host steps e₂ ∧
      Option.Rel Alike (Engine.iterate host steps e₁) (Engine.iterate host steps e₂) := by
  induction steps generalizing e₁ e₂ with
  | zero => exact ⟨rfl, .none⟩
  | succ steps ih =>
    obtain ⟨hanswer, hafter⟩ := h.next
    rw [rounds, rounds, Engine.iterate, Engine.iterate, step, step]
    rcases hnext₁ : e₁.scheduler.next 0 with ⟨answer₁, scheduler₁⟩
    rcases hnext₂ : e₂.scheduler.next 0 with ⟨answer₂, scheduler₂⟩
    rw [hnext₁, hnext₂] at hanswer hafter
    obtain rfl : answer₁ = answer₂ := hanswer
    cases answer₁ with
    | task t =>
      obtain ⟨hrounds, hends⟩ := ih (hafter.execute host t)
      exact ⟨congrArg₂ List.cons (hafter.round host t) hrounds, hends⟩
    | finished | blocked => exact ⟨rfl, .some hafter⟩

/-- Runs that have ended are closed alike. -/
theorem close (h : e₁.Alike e₂) (host : Host) :
    (e₁.close host).1 = (e₂.close host).1 ∧ (e₁.close host).2.Agree (e₂.close host).2 ∧
      (e₁.close host).2.SameBooks (e₂.close host).2 := by
  have hbooks : (e₁.close host).2.SameBooks (e₂.close host).2 := by
    refine ⟨?_, ?_, ?_⟩
    · rw [close_updateCount, close_updateCount, h.updateCount]
    · rw [close_failures, close_failures, h.failures]
    · rw [close_metrics, close_metrics, h.metrics, h.config, h.updateCount]
  rw [Engine.close, Engine.close] at hbooks ⊢
  dsimp only at hbooks ⊢
  rw [h.config, h.failures] at hbooks ⊢
  cases hstop : e₂.config.abortOnError <;> cases hreport : Failure.report e₂.failures
  all_goals
    rw [hstop, hreport] at hbooks
    refine ⟨rfl, ⟨⟨rfl, h.programs, h.memory, h.outline, h.cells, h.globals, h.registry⟩, ?_⟩,
      hbooks⟩
  · exact h.scheduler.tasks
  · exact h.scheduler.tasks
  · exact h.scheduler.tasks
  · exact h.scheduler.clear.tasks

end Alike

/-- A live engine with a vertex is ready to run, unless it has been left running. -/
private theorem Lawful.isReady (h : e₁.Lawful) (hlive : e₁.phase.isLive = true)
    (hcount : e₁.store.vertexCount ≠ 0) (hidle : e₁.phase ≠ .running) :
    e₁.phase.isReady = true := by
  cases hphase : e₁.phase with
  | created => exact absurd (by rw [(h.created hphase).1]; rfl) hcount
  | configured | completed => rfl
  | running => exact absurd hphase hidle
  | destroyed =>
    rw [hphase] at hlive
    cases hlive

/-- A live engine without vertices refuses to start, and nothing changes. -/
private theorem Lawful.start_of_empty (h : e₁.Lawful) (hlive : e₁.phase.isLive = true)
    (hcount : e₁.store.vertexCount = 0) (host : Host) (steps : Nat) :
    e₁.start host steps = some (.error (.state "start"
      (if e₁.phase = .created then "created" else "without a graph")), e₁) := by
  cases hphase : e₁.phase with
  | created | configured => simp [start, hphase, Phase.isReady, Phase.name, hcount]
  | running => exact absurd hcount (Nat.ne_of_gt (h.begun (.inl hphase)).2)
  | completed => exact absurd hcount (Nat.ne_of_gt (h.nonempty hphase))
  | destroyed =>
    rw [hphase] at hlive
    cases hlive

/-- A run that has nothing to do leaves an engine that agrees with the one before. -/
theorem agree_of_tasks_eq_nil (host : Host) (hsound : e₁.scheduler.Sound)
    (htasks : e₁.scheduler.tasks = []) (hready : e₁.phase.isReady = true)
    (hcount : e₁.store.vertexCount ≠ 0) (hroom : e₁.hasRoom host = true) :
    ∃ e₂, e₁.start host 1 = some (.ok (), e₂) ∧ e₂.phase = .completed ∧ e₁.Agree e₂ := by
  have hnil : (e₁.launch host).scheduler.tasks = [] := htasks
  rcases step_cases (e := e₁.launch host) (hsound.prepare _ _) rfl host with ⟨-, agenda, hstep⟩ |
    ⟨t, -, ht, -⟩
  · rw [start_eq hready hcount hroom, Engine.iterate, hstep, Option.map_some, close_of_failures rfl]
    exact ⟨_, rfl, rfl, ⟨rfl, rfl, rfl, rfl, rfl, rfl, rfl⟩, rfl⟩
  · rw [hnil] at ht
    cases ht

/-- Whatever was done with two engines before, if they are live, have a vertex and agree, a run by
one worker executes the same updates in the same order on both. If it ends on one of them, it does
on the other, with the same answer, the same data and globals, the same counts, failures and
metrics, and the engines agree again. Engines without vertices refuse to start, and nothing changes;
and so does one that was left running by a start that panicked, on a host that had no memory for the
workers. -/
theorem start_agree {config₁ config₂ : Config} {processors₁ processors₂ : Nat}
    {programs₁ programs₂ : P → Program V E M P} {memory₁ memory₂ : M}
    (h₁ : History (Engine.new config₁ processors₁ programs₁ memory₁) e₁)
    (h₂ : History (Engine.new config₂ processors₂ programs₂ memory₂) e₂)
    (hlive₁ : e₁.phase.isLive = true) (hlive₂ : e₂.phase.isLive = true) (hagree : e₁.Agree e₂)
    (hworkers : e₁.config.resolvedWorkers host.processors = 1) (steps : Nat) :
    (e₁.store.vertexCount ≠ 0 → e₁.phase ≠ .running → e₂.phase ≠ .running →
      e₁.phase.isReady = true ∧ e₂.phase.isReady = true ∧
      rounds host steps (e₁.launch host) = rounds host steps (e₂.launch host) ∧
      Option.Rel (fun r₁ r₂ => r₁.1 = r₂.1 ∧ r₁.2.Agree r₂.2 ∧ r₁.2.SameBooks r₂.2)
        (e₁.start host steps) (e₂.start host steps)) ∧
    (e₁.store.vertexCount = 0 → ∀ e ∈ [e₁, e₂], e.start host steps = some (.error (.state "start"
      (if e.phase = .created then "created" else "without a graph")), e)) ∧
    ∀ e ∈ [e₁, e₂], e.phase = .running →
      e.start host steps = some (.error (.state "start" "running"), e) := by
  have hlawful₁ := (Lawful.new config₁ processors₁ programs₁ memory₁).history h₁
  have hlawful₂ := (Lawful.new config₂ processors₂ programs₂ memory₂).history h₂
  refine ⟨?_, ?_, fun e _ hphase => by simp [start, hphase, Phase.isReady, Phase.name]⟩
  · intro hcount hidle₁ hidle₂
    have hcount₂ : e₂.store.vertexCount ≠ 0 := hagree.vertexCount ▸ hcount
    have hready₁ := hlawful₁.isReady hlive₁ hcount hidle₁
    have hready₂ := hlawful₂.isReady hlive₂ hcount₂ hidle₂
    obtain ⟨hrounds, hends⟩ := (hagree.launch hlawful₁ hlawful₂ host).iterate host steps
    refine ⟨hready₁, hready₂, hrounds, ?_⟩
    have hworkers₂ : e₂.config.resolvedWorkers host.processors = 1 := hagree.config ▸ hworkers
    rw [start_eq hready₁ hcount (hasRoom_of_one hworkers),
      start_eq hready₂ hcount₂ (hasRoom_of_one hworkers₂)]
    generalize Engine.iterate host steps (e₁.launch host) = last₁ at hends ⊢
    generalize Engine.iterate host steps (e₂.launch host) = last₂ at hends ⊢
    cases hends with
    | none => exact .none
    | some halike => exact .some (halike.close host)
  · intro hcount e he
    rcases List.mem_pair.mp he with rfl | rfl
    · exact hlawful₁.start_of_empty hlive₁ hcount host steps
    · exact hlawful₂.start_of_empty hlive₂ (hagree.vertexCount ▸ hcount) host steps

/-- An engine with a vertex agrees with what it is after a run that had nothing to do. So do the two
when a task is scheduled on both, and their next runs go alike. -/
theorem start_agree_tallied : ∃ e₁ e₂ : Engine Nat Nat Unit Unit, e₁.phase = .configured ∧
    e₂.phase = .completed ∧ e₁.scheduler.size = 1 ∧
    rounds {} 2 (e₁.launch {}) = rounds {} 2 (e₂.launch {}) ∧
    Option.Rel (fun r₁ r₂ => r₁.1 = r₂.1 ∧ r₁.2.Agree r₂.2 ∧ r₁.2.SameBooks r₂.2) (e₁.start {} 2)
    (e₂.start {} 2) := by
  have hlawful := (Lawful.new _ _ _ _).history (.single moves_tally)
  obtain ⟨after, hstart, hphase, hagree⟩ := agree_of_tasks_eq_nil {} hlawful.tasks.sound
    (Scheduler.tasks_of_empty rfl) rfl (by decide) rfl
  have hmoves : Moves tallied after := .start (starts_of_start hstart)
  have hlocate : tallied.locate 7 = .ok 0 := hlawful.valid.topology.require_eq rfl
  have hidle : after.phase.isIdle = true := by rw [hphase]; rfl
  have hscheduled := hagree.schedule hlawful (hlawful.moves hmoves) rfl hidle hlocate () .zero
  have h₁ : History tally (schedule 7 () .zero tallied).2 :=
    .tail (.single moves_tally) (.call (.schedule 7 () .zero))
  have h₂ : History tally (schedule 7 () .zero after).2 :=
    .tail (.tail (.single moves_tally) hmoves) (.call (.schedule 7 () .zero))
  have hlocate' : after.locate 7 = .ok 0 := by
    rwa [locate, ← hagree.topology hlawful (hlawful.moves hmoves)]
  rw [schedule_of_locate rfl hlocate] at h₁ hscheduled
  rw [schedule_of_locate hidle hlocate'] at h₂ hscheduled
  have hphase₂ : after.phase.configure = .completed := by rw [hphase]; rfl
  have hlive₂ : after.phase.configure.isLive = true := by rw [hphase₂]; rfl
  have hworkers : tallied.config.resolvedWorkers ({} : Host).processors = 1 := rfl
  obtain ⟨hruns, -⟩ := start_agree h₁ h₂ rfl hlive₂ hscheduled hworkers 2
  obtain ⟨-, -, hrounds, hends⟩ :=
    hruns (by decide) (by decide) fun hrunning => nomatch hphase₂.symm.trans hrunning
  exact ⟨_, _, rfl, hphase₂, Scheduler.size_push _ _, hrounds, hends⟩

/-- An engine that takes its number of workers from the host, with a vertex. -/
def hosted : Engine Nat Nat Unit Unit :=
  { Engine.new { workerThreads := 0, syncThreads := 1 } 1 tally.programs () with
    phase := .configured
    store := tallied.store }

/-- A new engine and one whose number of workers has been set to what it was agree, but refuse to
start with different errors: the one has not been configured, and the other has no graph. An engine
that was left running, on a host that had no memory for its workers, agrees with what it was before,
and refuses to start where that one runs. -/
theorem start_without_graph :
    (∃ e₁ e₂ : Engine Nat Nat Unit Unit, History tally e₁ ∧ History tally e₂ ∧
      e₁.phase.isLive = true ∧ e₂.phase.isLive = true ∧ e₁.Agree e₂ ∧
      e₁.config.resolvedWorkers 1 = 1 ∧ ∀ host steps,
      e₁.start host steps = some (.error (.state "start" "created"), e₁) ∧
        e₂.start host steps = some (.error (.state "start" "without a graph"), e₂)) ∧
    ∃ first e₁ e₂ : Engine Nat Nat Unit Unit, first.phase = .created ∧ History first e₁ ∧
      History first e₂ ∧ e₁.phase.isLive = true ∧ e₂.phase.isLive = true ∧ e₁.Agree e₂ ∧
      e₁.config.resolvedWorkers 1 = 1 ∧
      e₁.start {} 1 = some (.error (.state "start" "running"), e₁) ∧
      ∃ e, e₂.start {} 1 = some (.ok (), e) := by
  constructor
  · refine ⟨tally, (setWorkers 1 tally).2, .refl, .single (.call (.setWorkers 1)), rfl,
      rfl, ?_, rfl, fun host steps => ⟨rfl, rfl⟩⟩
    exact ⟨⟨rfl, rfl, rfl, rfl, rfl, rfl, rfl⟩, rfl⟩
  · have hvertex := moves_addVertex
      (e := (Engine.new { workerThreads := 0, syncThreads := 1 } 1 tally.programs
        () : Engine Nat Nat Unit Unit))
      7 rfl rfl addVertex_tallied
    have hcramped : hosted.Starts { processors := 1000000000000000000 } (.error .capacity)
        (hosted.launch { processors := 1000000000000000000 }) := .cramped rfl (by decide) rfl
    obtain ⟨e, hstart, -⟩ :=
      start_of_tasks_eq_nil (e := hosted) {} (Scheduler.Valid.new _ _).toSound
      (Scheduler.tasks_of_empty rfl) rfl (by decide) rfl
    refine ⟨_, _, hosted, rfl, .tail (.single hvertex) (.start hcramped), .single hvertex, rfl, rfl,
      ?_, rfl, rfl, e, hstart⟩
    exact ⟨⟨rfl, rfl, rfl, rfl, rfl, rfl, rfl⟩, rfl⟩

end Engine

end VertexPrograms
