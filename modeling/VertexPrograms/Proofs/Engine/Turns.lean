import VertexPrograms.Engine.Run
import VertexPrograms.Engine.Setup
import VertexPrograms.Proofs.Scheduler.Table

/-!
# Runs in any order

A turn hands out one of the pending tasks and runs it. Which one is left open, and so is what
becomes of the agenda, so that what holds of all sequences of turns holds of runs under every
policy. A step of a run is a turn, or finds nothing pending.
-/

namespace VertexPrograms.Engine

variable {V E M P : Type} {host : Host} {e e' : Engine V E M P} {t : Task P}

/-- The engine with a task handed out and an agenda that is left open. -/
def handOut (e : Engine V E M P) (t : Task P) (agenda : Agenda) : Engine V E M P :=
  { e with
    scheduler := { e.scheduler with
      agenda, pending := e.scheduler.pending.erase t.vertex, active := e.scheduler.active + 1 } }

/-- Some pending task is handed out and run. -/
inductive Turn (host : Host) (e : Engine V E M P) : Engine V E M P → Prop
  | run (t : Task P) (agenda : Agenda) (h : t ∈ e.scheduler.tasks) :
    Turn host e ((e.handOut t agenda).execute host t)

/-- Turns in a row, counted. -/
inductive Turns (host : Host) (e : Engine V E M P) : Nat → Engine V E M P → Prop
  | none : Turns host e 0 e
  | more {k : Nat} {e' e'' : Engine V E M P} (h : Turns host e k e') (hturn : Turn host e' e'') :
    Turns host e (k + 1) e''

/-- No aggregator runs of itself. -/
def Manual (e : Engine V E M P) : Prop := ∀ r ∈ e.registry.entries, r.interval = 0

/-- Passes that are not chosen leave everything as it is. -/
private theorem runWhere_none {chosen : Registration V E → Bool} {entries : List (Registration V E)}
    (h : ∀ r ∈ entries, chosen r = false) (t : Topology) (c : Cells V E) (g : Globals) :
    Registry.runWhere chosen t c entries g = ⟨entries, g, []⟩ := by
  induction entries with
  | nil => rfl
  | cons r rest ih =>
    have hr := h r List.mem_cons_self
    have hrest := ih fun q hq => h q (List.mem_cons_of_mem r hq)
    simp only [Registry.runWhere, hr, hrest]
    rfl

/-- If no aggregator runs of itself, none is due. -/
theorem Manual.runDue (h : e.Manual) : e.runDue = e := by
  have hdue (r : Registration V E) (hr : r ∈ e.registry.entries) :
      r.isDue e.updateCount = false := by
    simp [Registration.isDue, h r hr]
  simp only [Engine.runDue, Registry.onUpdate, runWhere_none hdue]
  rfl

/-- What an update that ends well leaves if no aggregator runs of itself. -/
theorem Manual.execute (h : e.Manual) (host : Host) {after : Update.State V E M P}
    (hrun : ((e.programs t.program).update (e.scopeOf t)).run (e.scopeOf t) t.program
      ⟨e.store.cells, e.globals, e.memory, #[]⟩ = (none, after)) :
    e.execute host t =
      { e with
        store := { e.store with cells := after.cells }
        globals := after.globals
        memory := after.memory
        scheduler := (e.scheduler.pushAll after.requests.toList).complete
        updateCount := e.updateCount + 1
        metrics := e.metrics.recordUpdate (e.programs t.program).name
          (host.duration (e.updateCount + 1)) } := by
  simp only [Engine.execute, runUpdate, hrun]
  exact Manual.runDue h

/-- The programs that are pending after such an update, if it asked for no program but its own. -/
theorem Manual.programOf?_execute (h : e.Manual) (host : Host) {agenda : Agenda}
    {after : Update.State V E M P}
    (hrun : ((e.programs t.program).update ((e.handOut t agenda).scopeOf t)).run
      ((e.handOut t agenda).scopeOf t) t.program ⟨e.store.cells, e.globals, e.memory, #[]⟩ =
        (none, after))
    (hself : ∀ r ∈ after.requests.toList, r.program = t.program) (v : VertexIndex) :
    ((e.handOut t agenda).execute host t).scheduler.programOf? v =
      if v ∈ after.requests.toList.map (·.vertex) then
        some ((if t.vertex = v then none else e.scheduler.programOf? v).getD t.program)
      else if t.vertex = v then none else e.scheduler.programOf? v := by
  have hmanual : (e.handOut t agenda).Manual := h
  have hpopped : (e.handOut t agenda).scheduler.programOf? v =
      if t.vertex = v then none else e.scheduler.programOf? v := Scheduler.programOf?_erase rfl v
  rw [hmanual.execute host hrun, ← hpopped]
  exact Scheduler.programOf?_pushAll hself _ v

/-! # Valid schedulers -/

section Valid

variable {n : Nat}

private theorem valid_recordFailure (h : e.scheduler.Valid n) (f : Failure) :
    (e.recordFailure f).scheduler.Valid n := by
  rw [recordFailure]
  dsimp only
  split
  · exact h.abort
  · exact h

private theorem valid_runDue (h : e.scheduler.Valid n) : e.runDue.scheduler.Valid n := by
  have hfold (count : Nat) (outcomes : List Registry.Outcome) {e : Engine V E M P}
      (h : e.scheduler.Valid n) : (outcomes.foldl (recordOutcome count) e).scheduler.Valid n := by
    induction outcomes generalizing e with
    | nil => exact h
    | cons o outcomes ih =>
      refine ih ?_
      rw [recordOutcome]
      split
      · exact h
      · rename_i fault _
        exact valid_recordFailure (e := { e with metrics := e.metrics.recordPass o.key }) h
          ⟨.aggregator o.key, fault.message, count⟩
  exact hfold _ _ h

/-- Running a task keeps the scheduler valid. -/
theorem valid_execute (h : e.scheduler.Valid n) (host : Host) (t : Task P) :
    (e.execute host t).scheduler.Valid n := by
  have hupdate : (e.runUpdate host t).2.scheduler.Valid n := by
    rw [runUpdate]
    dsimp only
    split
    · exact (h.pushAll _).complete
    · exact h.complete
  rw [execute]
  rcases hresult : e.runUpdate host t with ⟨_ | fault, u⟩
  · rw [hresult] at hupdate
    exact valid_runDue hupdate
  · rw [hresult] at hupdate
    exact valid_runDue (valid_recordFailure hupdate _)

end Valid

/-- A step of a run finds nothing pending, or it is a turn. -/
theorem step_cases {n : Nat} (hvalid : e.scheduler.Valid n) (ha : e.scheduler.aborted = false)
    (host : Host) : (e.scheduler.tasks = [] ∧ ∃ agenda, e.step host = .finished
      { e with scheduler := { e.scheduler with agenda } }) ∨
    ∃ t agenda, t ∈ e.scheduler.tasks ∧ (e.handOut t agenda).scheduler.Valid n ∧
      e.step host = .more ((e.handOut t agenda).execute host t) := by
  rcases hvalid.next_cases ha 0 with ⟨hnil, agenda, -, hnext⟩ |
    ⟨v, p, agenda, hp, -, hvalid', -, hnext⟩
  · refine .inl ⟨by rw [Scheduler.tasks_eq, hnil]; rfl, agenda, ?_⟩
    rw [step, hnext]
    by_cases hactive : e.scheduler.active = 0 <;> simp [hactive]
  · refine .inr ⟨Scheduler.taskOf (v, p), agenda, ?_, hvalid', ?_⟩
    · rw [Scheduler.tasks_eq]
      exact List.mem_map_of_mem (Scheduler.mem_inOrder.mpr hp)
    · rw [step, hnext]
      rfl

/-- A run without failures ends well. -/
theorem close_of_failures (h : e.failures = []) (host : Host) : e.close host =
    (.ok (), { e with
      phase := .completed
      failures := []
      metrics := { e.metrics with
        workers := e.config.resolvedWorkers host.processors
        started := true
        lastUpdateCount := e.updateCount } }) := by
  simp only [close, h, Failure.report, List.mergeSort_nil]
  cases e.config.abortOnError <;> rfl

/-- A run with one worker has room. -/
theorem hasRoom_of_one (h : e.config.resolvedWorkers host.processors = 1) :
    e.hasRoom host = true := by
  rw [hasRoom, h]
  cases e.config.policy <;> decide

/-- After a program has been scheduled on all vertices, and nothing was pending before, it is
pending on all of them, and a run can begin. -/
theorem of_scheduleAll {p : P} {priority : Priority} (hempty : e.scheduler.size = 0)
    (h : e.scheduleAll p priority = (.ok (), e')) :
    ∃ ts, e' = { e with phase := e.phase.configure, scheduler := e.scheduler.pushAll ts } ∧
      0 < e.store.vertexCount ∧ e'.phase.isReady = true ∧
      ∀ v, e'.scheduler.programOf? v = if v < e.store.vertexCount then some p else none := by
  rw [scheduleAll, Operation.during] at h
  by_cases hidle : e.phase.isIdle = true
  · rw [if_pos hidle, Operation.setUp, Operation.change] at h
    by_cases hn : e.store.vertexCount = 0
    · simp only [if_pos hn] at h
      cases (Prod.mk.inj h).1
    · simp only [if_neg hn] at h
      obtain ⟨-, rfl⟩ := Prod.mk.inj h
      have hnone := Scheduler.programOf?_eq_none (Scheduler.size_eq_zero.mp hempty)
      refine ⟨_, rfl, Nat.pos_of_ne_zero hn, ?_, fun v => ?_⟩
      · change e.phase.configure.isReady = true
        cases hphase : e.phase <;> simp_all [Phase.isIdle, Phase.configure, Phase.isReady]
      · refine (Scheduler.programOf?_pushAll (p := p) (by simp) e.scheduler v).trans ?_
        simp only [hnone, List.map_map, List.mem_map, List.mem_range, Function.comp_apply,
          exists_eq_right, Option.getD_none]
  · simp [if_neg hidle] at h

end VertexPrograms.Engine
