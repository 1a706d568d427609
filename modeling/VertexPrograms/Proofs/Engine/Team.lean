import Mathlib.Logic.Relation
import VertexPrograms.Engine.Interruption
import VertexPrograms.Proofs.Program.Isolation
import VertexPrograms.Scope.Locks

/-!
# Runs of several workers

A run by any number of workers, whose atomic steps come in any order: to ask for a task, to take one
lock, to make one call of an update, to push one task, to count an update, to complete a task, to
run one pass, to record one failure. What locks rule out is only an order of steps, and none is
ruled out here; what a pass makes of the globals while others use them is left open, and so is what
is measured. The run that has one worker do everything by itself is one of these, also if user code
cuts the worker off.
-/

namespace VertexPrograms

variable {V E M P : Type}

namespace Engine

/-- What the updates of a run share. -/
def shared (e : Engine V E M P) : Shared V E M := ⟨e.store.cells, e.globals, e.memory⟩

/-- The engine with what updates have made of what they share. -/
def withShared (e : Engine V E M P) (s : Shared V E M) : Engine V E M P :=
  { e with store := { e.store with cells := s.cells }, globals := s.globals, memory := s.memory }

/-- The update of a task that has not begun. -/
def threadOf (e : Engine V E M P) (t : Task P) : Thread V E M P where
  scope := e.scopeOf t
  self := t.program
  rest := (e.programs t.program).update (e.scopeOf t)

/-- The failure of the update of a task. -/
def updateFailure (e : Engine V E M P) (t : Task P) (fault : Fault) (count : Nat) : Failure :=
  ⟨.update (e.scopeOf t).vertex (e.programs t.program).name, fault.message, count⟩

end Engine

/-- The failures of passes among outcomes. -/
def Registry.failuresOf (count : Nat) (outcomes : List Registry.Outcome) : List Failure :=
  outcomes.filterMap fun o => o.fault.map fun fault => ⟨.aggregator o.key, fault.message, count⟩

/-- What a worker of a run is doing. -/
inductive Duty (V E M P : Type) where
  /-- It asks for a task. -/
  | asking
  /-- It takes the locks of its scope that it does not hold yet. -/
  | locking (t : Task P) (missing : List Lock)
  | updating (t : Task P) (thread : Thread V E M P)
  /-- The update has ended, with a fault if it failed; tasks that it asked for are left to be
  pushed. -/
  | publishing (t : Task P) (fault : Option Fault) (requests : List (Task P))
  /-- The update has its number. -/
  | counted (t : Task P) (fault : Option Fault) (count : Nat)
  | completed (t : Task P) (fault : Option Fault) (count : Nat)
  /-- It runs the passes that are due, from a position in the registry on, and has seen some fail.
  -/
  | passing (count position : Nat) (failures : List Failure)
  /-- It records the passes that have failed. -/
  | recording (failures : List Failure)
  | gone

/-- An engine in a run, with its workers. -/
structure Team (V E M P : Type) where
  engine : Engine V E M P
  /-- The number of vertices there are locks for. -/
  locks : Nat
  duty : Nat → Duty V E M P

namespace Team

/-- The team after a step of one worker. -/
def act (r : Team V E M P) (w : Nat) (engine : Engine V E M P) (duty : Duty V E M P) :
    Team V E M P :=
  { r with engine, duty := fun u => if u = w then duty else r.duty u }

/-- One atomic step. -/
inductive Step (r : Team V E M P) : Team V E M P → Prop
  | took {w : Nat} {t : Task P} {s : Scheduler P} (h : r.duty w = .asking)
      (hnext : r.engine.scheduler.next w = (.task t, s)) :
      Step r (r.act w { r.engine with scheduler := s } (.locking t (r.engine.scopeOf t).lockSet))
  | waited {w : Nat} {s : Scheduler P} (h : r.duty w = .asking)
      (hnext : r.engine.scheduler.next w = (.blocked, s)) :
      Step r (r.act w { r.engine with scheduler := s } .asking)
  | finished {w : Nat} {s : Scheduler P} (h : r.duty w = .asking)
      (hnext : r.engine.scheduler.next w = (.finished, s)) :
      Step r (r.act w { r.engine with scheduler := s } .gone)
  | locked {w : Nat} {t : Task P} {l : Lock} {ls : List Lock}
      (h : r.duty w = .locking t (l :: ls)) : Step r (r.act w r.engine (.locking t ls))
  | entered {w : Nat} {t : Task P} (h : r.duty w = .locking t []) :
      Step r (r.act w r.engine (.updating t (r.engine.threadOf t)))
  | called {w : Nat} {t : Task P} {th : Thread V E M P} (h : r.duty w = .updating t th) :
      Step r (r.act w (r.engine.withShared (th.step r.engine.shared).2)
        (.updating t (th.step r.engine.shared).1))
  | released {w : Nat} {t : Task P} {th : Thread V E M P} {report : Report P}
      (h : r.duty w = .updating t th) (hreport : th.report? = some report) :
      Step r (r.act w r.engine (.publishing t report.fault
        (if report.fault.isNone then report.requests.toList else [])))
  | pushed {w : Nat} {t q : Task P} {fault : Option Fault} {qs : List (Task P)}
      (h : r.duty w = .publishing t fault (q :: qs)) :
      Step r (r.act w { r.engine with scheduler := (r.engine.scheduler.push q).2 }
        (.publishing t fault qs))
  | counted {w : Nat} {t : Task P} {fault : Option Fault} (h : r.duty w = .publishing t fault []) :
      Step r (r.act w { r.engine with updateCount := r.engine.updateCount + 1 }
        (.counted t fault (r.engine.updateCount + 1)))
  | completed {w count : Nat} {t : Task P} {fault : Option Fault}
      (h : r.duty w = .counted t fault count) :
      Step r (r.act w { r.engine with scheduler := r.engine.scheduler.complete }
        (.completed t fault count))
  | reported {w count : Nat} {t : Task P} {fault : Fault}
      (h : r.duty w = .completed t (some fault) count) :
      Step r (r.act w { r.engine with
        failures := r.engine.failures ++ [r.engine.updateFailure t fault count] }
        (.passing count 0 []))
  | succeeded {w count : Nat} {t : Task P} (h : r.duty w = .completed t none count) :
      Step r (r.act w r.engine (.passing count 0 []))
  | passedOver {w count i : Nat} {fs : List Failure} {a : Registration V E}
      (h : r.duty w = .passing count i fs) (ha : r.engine.registry.entries[i]? = some a)
      (hdue : a.isDue count = false) : Step r (r.act w r.engine (.passing count (i + 1) fs))
  | passed {w count i : Nat} {fs : List Failure} {a : Registration V E}
      (h : r.duty w = .passing count i fs) (ha : r.engine.registry.entries[i]? = some a)
      (hdue : a.isDue count = true) (globals : Globals) (fault : Option Fault) :
      Step r (r.act w
        { r.engine with
          registry := ⟨r.engine.registry.entries.set i { a with runs := a.runs + 1 }⟩
          globals }
        (.passing count (i + 1) (fs ++ Registry.failuresOf count [⟨a.key, fault⟩])))
  | allPassed {w count i : Nat} {fs : List Failure} (h : r.duty w = .passing count i fs)
      (hi : r.engine.registry.entries[i]? = none) : Step r (r.act w r.engine (.recording fs))
  | recorded {w : Nat} {f : Failure} {fs : List Failure} (h : r.duty w = .recording (f :: fs)) :
      Step r (r.act w { r.engine with failures := r.engine.failures ++ [f] } (.recording fs))
  | returned {w : Nat} (h : r.duty w = .recording []) : Step r (r.act w r.engine .asking)
  /-- Somebody ends the run, as is done after a failure or when a worker cannot be started. -/
  | aborted : Step r { r with engine := { r.engine with scheduler := r.engine.scheduler.abort } }
  /-- A worker leaves: it is never started, or it is cut off by a panic that nothing catches. -/
  | lost {w : Nat} : Step r (r.act w r.engine .gone)
  | measured (metrics : Metrics) : Step r { r with engine := { r.engine with metrics } }

/-- Steps in a row. -/
abbrev Run : Team V E M P → Team V E M P → Prop := Relation.ReflTransGen Step

/-- A team that begins a run: each worker asks for its first task. -/
def launch (host : Host) (workers : Nat) (e : Engine V E M P) : Team V E M P where
  engine := e.launch host
  locks := e.store.vertexCount
  duty w := if w < workers then .asking else .gone

/-- Everybody has left. -/
def Over (r : Team V E M P) : Prop := ∀ w, r.duty w = .gone

end Team

namespace Engine

/-- What starting a run comes to: the answer, and the engine afterwards. It is refused in the wrong
phase or without a graph; or it panics, since there is no memory for it; or the workers, however
many, run in some way until all have left; or they do, but one of them could not be started. -/
inductive Starts (host : Host) (e : Engine V E M P) : Except Error Unit → Engine V E M P → Prop
  | refused (hphase : e.phase.isReady = false) :
      Starts host e (.error (.state "start" e.phase.name)) e
  | empty (hphase : e.phase.isReady = true) (hcount : e.store.vertexCount = 0) :
      Starts host e (.error (.state "start" "without a graph")) e
  | cramped (hphase : e.phase.isReady = true) (hcount : e.store.vertexCount ≠ 0)
      (hroom : e.hasRoom host = false) : Starts host e (.error .capacity) (e.collapse host)
  | ran (hphase : e.phase.isReady = true) (hcount : e.store.vertexCount ≠ 0)
      (hroom : e.hasRoom host = true) {workers : Nat} {r : Team V E M P}
      (hrun : Team.Run (Team.launch host workers e) r) (hover : r.Over) :
      Starts host e (r.engine.close host).1 (r.engine.close host).2
  | unspawned (hphase : e.phase.isReady = true) (hcount : e.store.vertexCount ≠ 0)
      (hroom : e.hasRoom host = true) {workers : Nat} {r : Team V E M P}
      (hrun : Team.Run (Team.launch host workers e) r) (hover : r.Over) (reason : String) :
      Starts host e (.error (.construction reason)) { r.engine with
        phase := .completed, failures := [], metrics := {} }

end Engine

/-! # One worker by itself -/

namespace Team

variable {r : Team V E M P} {e : Engine V E M P} {t : Task P}

/-- A worker that acts twice has acted as it did last. -/
private theorem step_act {e' : Engine V E M P} {d d' : Duty V E M P}
    (h : Step (r.act 0 e d) ((r.act 0 e d).act 0 e' d')) : Step (r.act 0 e d) (r.act 0 e' d') := by
  have hact : (r.act 0 e d).act 0 e' d' = r.act 0 e' d' := by
    simp only [act, mk.injEq, true_and]
    funext u
    split <;> rfl
  rwa [hact] at h

private theorem duty_act (r : Team V E M P) (e : Engine V E M P) (d : Duty V E M P) :
    (r.act 0 e d).duty 0 = d := by
  simp [act]

private theorem run_measured (metrics : Metrics) (d : Duty V E M P) :
    Run (r.act 0 e d) (r.act 0 { e with metrics } d) := .single (.measured metrics)

private theorem run_aborted (d : Duty V E M P) :
    Run (r.act 0 e d) (r.act 0 { e with scheduler := e.scheduler.abort } d) := .single .aborted

/-- A worker may take all the locks that it misses. -/
private theorem run_locks (t : Task P) (ls : List Lock) :
    Run (r.act 0 e (.locking t ls)) (r.act 0 e (.locking t [])) := by
  induction ls with
  | nil => exact .refl
  | cons l ls ih => exact .head (step_act (.locked (duty_act ..))) ih

/-- A worker that is not interrupted brings its update to the end to which the update comes when run
alone. -/
private theorem run_thread (t : Task P) (th : Thread V E M P) :
    ∃ th' : Thread V E M P, th'.report? = some (th.runAlone e.shared).1 ∧
      Run (r.act 0 e (.updating t th))
      (r.act 0 (e.withShared (th.runAlone e.shared).2) (.updating t th')) := by
  -- The induction is on what is left of the update: each call that it makes is one step.
  induction hrest : th.rest generalizing th e with
  | done | fail fault =>
    obtain ⟨report, hreport⟩ : ∃ report, th.report? = some report := by simp [Thread.report?, hrest]
    refine ⟨th, ?_, ?_⟩
    · rw [Thread.runAlone_of_report hreport]
      exact hreport
    · rw [Thread.runAlone_of_report hreport]
      exact .refl
  | access call next ih | «global» call next ih | request q next ih | exchange change next ih
  | requested next ih =>
    have hstep : Step (r.act 0 e (.updating t th)) (r.act 0 (e.withShared (th.step e.shared).2)
        (.updating t (th.step e.shared).1)) := step_act (.called (duty_act ..))
    obtain ⟨th', hreport, hrun⟩ :=
      ih _ (e := e.withShared (th.step e.shared).2) (th.step e.shared).1
      (by rw [Thread.step, hrest]; rfl)
    have halone := Thread.runAlone_step th e.shared
    refine ⟨th', halone ▸ hreport, .head hstep ?_⟩
    exact halone ▸ hrun

/-- A worker may push all the tasks that are left. -/
private theorem run_pushes (t : Task P) (fault : Option Fault) (qs : List (Task P)) :
    Run (r.act 0 e (.publishing t fault qs))
      (r.act 0 { e with scheduler := e.scheduler.pushAll qs } (.publishing t fault [])) := by
  induction qs generalizing e with
  | nil => exact .refl
  | cons q qs ih =>
    exact .head (step_act (.pushed (duty_act ..)))
      (ih (e := { e with scheduler := (e.scheduler.push q).2 }))

/-- A worker that is not interrupted brings the update of its task to its end. -/
private theorem run_ended (host : Host) (e : Engine V E M P) (t : Task P) :
    ∃ (th : Thread V E M P) (report : Report P), th.report? = some report ∧
      report.fault = (e.runUpdate host t).1 ∧
      (e.runUpdate host t).2.scheduler = (e.scheduler.pushAll
        (if report.fault.isNone then report.requests.toList else [])).complete ∧
      Run (r.act 0 e (.locking t (e.scopeOf t).lockSet))
        (r.act 0 { e with
          store := (e.runUpdate host t).2.store
          globals := (e.runUpdate host t).2.globals
          memory := (e.runUpdate host t).2.memory } (.updating t th)) := by
  obtain ⟨th, hreport, hthread⟩ := run_thread (r := r) (e := e) t (e.threadOf t)
  rcases hresult : ((e.programs t.program).update (e.scopeOf t)).run (e.scopeOf t) t.program
    ⟨e.store.cells, e.globals, e.memory, #[]⟩ with ⟨fault, after⟩
  have halone : (e.threadOf t).runAlone e.shared =
      (⟨fault, after.requests⟩, ⟨after.cells, after.globals, after.memory⟩) := by
    simp only [Thread.runAlone, Engine.threadOf, Thread.state, Engine.shared, hresult]
  rw [halone] at hreport hthread
  simp only [Engine.runUpdate, hresult]
  refine ⟨th, _, hreport, rfl, ?_, ?_⟩
  · cases fault <;> rfl
  · exact ((run_locks t _).tail (step_act (.entered (duty_act ..)))).trans hthread

/-- A worker that is not interrupted counts the update of its task. -/
private theorem run_update (host : Host) (e : Engine V E M P) (t : Task P) :
    Run (r.act 0 e (.locking t (e.scopeOf t).lockSet)) (r.act 0 (e.runUpdate host t).2
      (.completed t (e.runUpdate host t).1 (e.updateCount + 1))) := by
  obtain ⟨th, report, hreport, hfault, hscheduler, hended⟩ := run_ended (r := r) host e t
  have hcompleted : { (e.runUpdate host t).2 with metrics := e.metrics } =
      { e with
        store := (e.runUpdate host t).2.store
        globals := (e.runUpdate host t).2.globals
        memory := (e.runUpdate host t).2.memory
        scheduler := (e.scheduler.pushAll
          (if report.fault.isNone = true then report.requests.toList else [])).complete
        updateCount := e.updateCount + 1 } := by
    rw [← hscheduler]
    rfl
  have hmeasured : Run
      (r.act 0 { (e.runUpdate host t).2 with metrics := e.metrics }
        (.completed t report.fault (e.updateCount + 1)))
      (r.act 0 (e.runUpdate host t).2 (.completed t report.fault (e.updateCount + 1))) :=
        run_measured _ _
  rw [hcompleted] at hmeasured
  rw [← hfault]
  refine hended.trans (.head (step_act (.released (duty_act ..) hreport)) ?_)
  refine (run_pushes t _ _).trans (.head (step_act (.counted (duty_act ..))) ?_)
  exact .head (step_act (.completed (duty_act ..))) hmeasured

/-- Recording a failure ends the run if it is configured so. -/
private theorem run_record (e : Engine V E M P) (f : Failure) (d : Duty V E M P) :
    Run (r.act 0 { e with failures := e.failures ++ [f] } d) (r.act 0 (e.recordFailure f) d) := by
  rw [Engine.recordFailure]
  cases e.config.abortOnError with
  | true => exact (run_aborted d).trans (run_measured _ d)
  | false => exact run_measured _ d

/-- A registration that is not due is passed over. -/
private theorem run_passedOver (e : Engine V E M P) {count : Nat}
    (before rest : List (Registration V E)) {a : Registration V E} (hdue : a.isDue count = false)
    (g : Globals) (fs : List Failure) :
    Run (r.act 0 { e with registry := ⟨before ++ a :: rest⟩, globals := g }
      (.passing count before.length fs))
        (r.act 0 { e with registry := ⟨before ++ [a] ++ rest⟩, globals := g }
          (.passing count (before ++ [a]).length fs)) := by
  have ha : (before ++ a :: rest)[before.length]? = some a := by simp
  rw [List.append_assoc, List.length_append]
  exact .single (step_act (.passedOver (duty_act ..) ha hdue))

/-- A pass that is due is run. -/
private theorem run_passed (e : Engine V E M P) {count : Nat}
    (before rest : List (Registration V E)) {a : Registration V E} (hdue : a.isDue count = true)
    (g g' : Globals) (fault : Option Fault) (fs : List Failure) :
    Run (r.act 0 { e with registry := ⟨before ++ a :: rest⟩, globals := g }
      (.passing count before.length fs))
        (r.act 0 { e with
          registry := ⟨before ++ [{ a with runs := a.runs + 1 }] ++ rest⟩, globals :=
            g' } (.passing count (before ++ [{ a with runs := a.runs + 1 }]).length
          (fs ++ Registry.failuresOf count [⟨a.key, fault⟩]))) := by
  have ha : (before ++ a :: rest)[before.length]? = some a := by simp
  have hset : (before ++ a :: rest).set before.length { a with runs := a.runs + 1 } =
      before ++ { a with runs := a.runs + 1 } :: rest := by simp
  rw [List.append_assoc, List.length_append, List.singleton_append, ← hset]
  exact .single (step_act (.passed (duty_act ..) ha hdue g' fault))

/-- The passes from a position on are run one after another. -/
private theorem run_passes (e : Engine V E M P) (count : Nat)
    (before rest : List (Registration V E)) (g : Globals) (fs : List Failure) :
    let p := Registry.runWhere (·.isDue count) e.store.topology e.store.cells rest g
    Run (r.act 0 { e with registry := ⟨before ++ rest⟩, globals := g }
      (.passing count before.length fs))
        (r.act 0 { e with registry := ⟨before ++ p.entries⟩, globals := p.globals }
          (.recording (fs ++ Registry.failuresOf count p.outcomes))) := by
  induction rest generalizing before g fs with
  | nil =>
    have hend : Step (r.act 0 { e with registry := ⟨before⟩, globals := g }
        (.passing count before.length fs)) (r.act 0 { e with registry := ⟨before⟩, globals := g }
        (.recording fs)) :=
      step_act (.allPassed (duty_act ..) (by simp [act]))
    simpa [Registry.runWhere, Registry.failuresOf] using Relation.ReflTransGen.single hend
  | cons a rest ih =>
    rw [Registry.runWhere]
    cases hdue : a.isDue count with
    | false =>
      have hrest := (run_passedOver e before rest hdue g fs).trans (ih (before ++ [a]) g fs)
      simpa only [List.append_assoc, List.singleton_append, Bool.false_eq_true, if_false]
        using hrest
    | true =>
      rcases a.pass e.store.topology e.store.cells g with ⟨result, g'⟩
      have hfailures (os : List Registry.Outcome) (o : Registry.Outcome) :
          Registry.failuresOf count (o :: os) = Registry.failuresOf count [o] ++
            Registry.failuresOf count os := by
        rw [← List.singleton_append, Registry.failuresOf, List.filterMap_append]
        rfl
      have hrest :=
        (run_passed e before rest hdue g g' (Registry.faultOf? result) fs).trans (ih _ g' _)
      simp only [if_true]
      rw [hfailures]
      simpa only [List.append_assoc, List.singleton_append] using hrest

/-- Failed passes are recorded in order. -/
private theorem run_outcomes (e : Engine V E M P) (count : Nat) (os : List Registry.Outcome) :
    Run (r.act 0 e (.recording (Registry.failuresOf count os)))
      (r.act 0 (os.foldl (Engine.recordOutcome count) e) (.recording [])) := by
  induction os generalizing e with
  | nil => exact .refl
  | cons o os ih =>
    refine .trans ?_ (ih (Engine.recordOutcome count e o))
    rw [Engine.recordOutcome]
    cases hfault : o.fault with
    | none =>
      rw [Registry.failuresOf, List.filterMap_cons, hfault]
      exact run_measured _ _
    | some fault =>
      rw [Registry.failuresOf, List.filterMap_cons, hfault]
      refine (run_measured (e.metrics.recordPass o.key) _).trans ?_
      exact .head (step_act (.recorded (duty_act ..))) (run_record _ _ _)

/-- A worker may run all the passes that are due. -/
private theorem run_due (e : Engine V E M P) :
    Run (r.act 0 e (.passing e.updateCount 0 [])) (r.act 0 e.runDue .asking) := by
  have hpasses := run_passes (r := r) e e.updateCount [] e.registry.entries e.globals []
  exact hpasses.trans ((run_outcomes _ _ _).tail (step_act (.returned (duty_act ..))))

/-- A worker that is not interrupted comes to the passes with the update of its task counted and
reported. -/
private theorem run_report (host : Host) (e : Engine V E M P) (t : Task P) :
    Run (r.act 0 e (.locking t (e.scopeOf t).lockSet))
      (r.act 0 ((e.runUpdate host t).2.report t (e.runUpdate host t).1)
        (.passing (e.updateCount + 1) 0 [])) := by
  have hupdate := run_update (r := r) host e t
  rcases hresult : e.runUpdate host t with ⟨_ | fault, e'⟩
  · rw [hresult] at hupdate
    exact hupdate.tail (step_act (.succeeded (duty_act ..)))
  · have hcount : e'.updateCount = e.updateCount + 1 := congrArg (·.2.updateCount) hresult.symm
    rw [hresult, ← hcount] at hupdate
    rw [← hcount]
    exact (hupdate.tail (step_act (.reported (duty_act ..)))).trans (run_record _ _ _)

/-- The number of an update is not changed by its report. -/
private theorem updateCount_report (host : Host) (e : Engine V E M P) (t : Task P) :
    ((e.runUpdate host t).2.report t (e.runUpdate host t).1).updateCount = e.updateCount + 1 := by
  cases (e.runUpdate host t).1 <;> rfl

/-- A worker that is not interrupted does with a task what a run by steps does. -/
private theorem run_execute (host : Host) (e : Engine V E M P) (t : Task P) :
    Run (r.act 0 e (.locking t (e.scopeOf t).lockSet)) (r.act 0 (e.execute host t) .asking) := by
  have hreport := run_report (r := r) host e t
  rw [← updateCount_report] at hreport
  exact hreport.trans (run_due _)

/-- A single worker begins by asking for a task. -/
private theorem act_launch (host : Host) (e : Engine V E M P) :
    (launch host 1 e).act 0 (e.launch host) .asking = launch host 1 e := by
  simp only [act, launch, mk.injEq, true_and]
  funext w
  by_cases hw : w = 0 <;> simp [hw]

/-- A worker who is cut off among the passes has run those up to there. -/
private theorem run_cutPasses (muted : Fault → Bool) (e : Engine V E M P) (count : Nat)
    (before rest : List (Registration V E)) (g : Globals) (fs : List Failure)
    {entries : List (Registration V E)} {g' : Globals}
    (h : Registry.cutOff? muted (·.isDue count) e.store.topology e.store.cells rest g =
      some (entries, g')) :
    ∃ i fs', Run (r.act 0 { e with registry := ⟨before ++ rest⟩, globals := g }
      (.passing count before.length fs))
        (r.act 0 { e with registry := ⟨before ++ entries⟩, globals := g' }
          (.passing count i fs')) := by
  induction rest generalizing before g fs entries with
  | nil => cases h
  | cons a rest ih =>
    rw [Registry.cutOff?] at h
    cases hdue : a.isDue count with
    | false =>
      simp only [hdue, Bool.false_eq_true, if_false, Option.map_eq_some_iff, Prod.exists,
        Prod.mk.injEq] at h
      obtain ⟨rest', _, hrest, rfl, rfl⟩ := h
      obtain ⟨i, fs', hrun⟩ := ih (before ++ [a]) g fs hrest
      rw [List.append_assoc before [a] rest'] at hrun
      exact ⟨i, fs', (run_passedOver e before rest hdue g fs).trans hrun⟩
    | true =>
      simp only [hdue, if_true] at h
      let passed := a.pass e.store.topology e.store.cells g
      have hpassed :=
        run_passed (r := r) e before rest hdue g passed.2 (Registry.faultOf? passed.1) fs
      split at h
      · obtain ⟨rfl, rfl⟩ := Prod.mk.inj (Option.some.inj h)
        rw [List.append_assoc] at hpassed
        exact ⟨_, _, hpassed⟩
      · simp only [Option.map_eq_some_iff, Prod.exists, Prod.mk.injEq] at h
        obtain ⟨rest', _, hrest, rfl, rfl⟩ := h
        obtain ⟨i, fs', hrun⟩ := ih (before ++ [{ a with runs := a.runs + 1 }]) passed.2 _ hrest
        rw [List.append_assoc before _ rest'] at hrun
        exact ⟨i, fs', hpassed.trans hrun⟩

/-- A worker may be cut off at any time. -/
private theorem run_lost (d : Duty V E M P) : Run (r.act 0 left d) (r.act 0 left .gone) :=
  .single (step_act .lost)

/-- A worker that is not interrupted does what a run by steps does with a task, up to where it is
cut off. -/
private theorem run_cutOff {panics : Panics V E M P} {host : Host} {left : Engine V E M P}
    (h : e.cutOff? panics host t = some left) :
    Run (r.act 0 e (.locking t (e.scopeOf t).lockSet)) (r.act 0 left .gone) := by
  rw [Engine.cutOff?] at h
  dsimp only at h
  split at h
  · obtain rfl := Option.some.inj h
    exact run_lost _
  · split at h
    · obtain rfl := Option.some.inj h
      obtain ⟨th, -, -, -, -, hended⟩ := run_ended (r := r) host e t
      exact hended.trans (run_lost _)
    · split at h
      · obtain rfl := Option.some.inj h
        exact (run_update host e t).trans (run_lost _)
      · obtain ⟨⟨entries, globals⟩, hpasses, rfl⟩ := Option.map_eq_some_iff.mp h
        rw [updateCount_report] at hpasses
        obtain ⟨i, fs, hcut⟩ := run_cutPasses (r := r) _ _ _ [] _ _ [] hpasses
        exact (run_report host e t).trans (hcut.trans (run_lost _))

/-- A worker that is not interrupted runs until it has left, or is cut off, as a run by steps does.
-/
private theorem run_iterateAmid {panics : Panics V E M P} {host : Host} {steps : Nat}
    {e' : Engine V E M P} (h : Engine.iterateAmid panics host steps e = some e') :
    Run (r.act 0 e .asking) (r.act 0 e' .gone) := by
  induction steps generalizing e with
  | zero => cases h
  | succ steps ih =>
    rw [Engine.iterateAmid] at h
    rcases hnext : e.scheduler.next 0 with ⟨t | _ | _, s⟩
    · rw [hnext] at h
      dsimp only at h
      have htook :
          Step (r.act 0 e .asking) (r.act 0 { e with scheduler := s }
            (.locking t (e.scopeOf t).lockSet)) :=
        step_act (.took (duty_act ..) hnext)
      cases hcut : Engine.cutOff? panics host { e with scheduler := s } t with
      | some left =>
        rw [hcut] at h
        obtain rfl := Option.some.inj h
        exact .head htook ((run_cutOff hcut).trans (run_measured {} _))
      | none =>
        rw [hcut] at h
        exact .head htook ((run_execute host { e with scheduler := s } t).trans (ih h))
    · rw [hnext] at h
      obtain rfl := Option.some.inj h
      exact .single (step_act (.finished (duty_act ..) hnext))
    -- A worker by itself has nobody to wait for: the run by steps ends here, and so the worker
    -- leaves.
    · rw [hnext] at h
      obtain rfl := Option.some.inj h
      exact .head (step_act (.waited (duty_act ..) hnext)) (run_lost _)

end Team

/-! # Without panics -/

/-- Where no user code panics, every fault can be told. -/
theorem Panics.mutes_calm (e : Engine V E M P) (fault : Fault) :
    ({} : Panics V E M P).mutes e fault = false := by
  cases fault <;> rfl

/-- Nobody is cut off among passes if all faults can be told. -/
theorem Registry.cutOff?_eq_none {muted : Fault → Bool} (h : ∀ fault, muted fault = false)
    (chosen : Registration V E → Bool) (t : Topology) (c : Cells V E)
    (entries : List (Registration V E)) (g : Globals) :
    cutOff? muted chosen t c entries g = none := by
  have hnever (fault : Option Fault) : fault.any muted = false := by
    cases fault with
    | none => rfl
    | some fault => exact h fault
  induction entries generalizing g with
  | nil => rfl
  | cons a rest ih => simp [cutOff?, hnever, ih]

namespace Engine

variable {panics : Panics V E M P} {host : Host} {e e' before left : Engine V E M P} {t : Task P}
  {answer : Except Error Unit} {steps : Nat}

/-- Nor is anybody in a task. -/
theorem cutOff?_calm (host : Host) (e : Engine V E M P) (t : Task P) :
    e.cutOff? {} host t = none := by
  have hnever (u : Engine V E M P) (fault : Option Fault) :
      fault.any (({} : Panics V E M P).mutes u) = false := by
    cases fault with
    | none => rfl
    | some fault => exact Panics.mutes_calm u fault
  simp only [cutOff?, hnever, Bool.false_eq_true, if_false, Bool.or_self, Bool.and_false,
    Registry.cutOff?_eq_none (Panics.mutes_calm _), Option.map_none]

/-- Where no user code panics, a run is not cut off. -/
theorem iterateAmid_calm (host : Host) (steps : Nat) (e : Engine V E M P) :
    iterateAmid {} host steps e = iterate host steps e := by
  induction steps generalizing e with
  | zero => rfl
  | succ steps ih =>
    rw [iterateAmid, iterate, step]
    rcases e.scheduler.next 0 with ⟨answer, scheduler⟩
    cases answer with
    | task t =>
      dsimp only
      rw [cutOff?_calm]
      exact ih _
    | finished | blocked => rfl

/-- If user code never panics where nothing catches it, a run is one that is not cut off. -/
theorem startAmid_calm (host : Host) (steps : Nat) (e : Engine V E M P) :
    e.startAmid {} host steps = e.start host steps := by
  rw [startAmid, start, iterateAmid_calm]

end Engine

/-- To run the pending tasks one after another, until the worker is cut off, is one way of starting
a run. -/
theorem Engine.starts_of_startAmid {panics : Panics V E M P} {host : Host} {steps : Nat}
    {e e' : Engine V E M P} {answer : Except Error Unit}
    (h : e.startAmid panics host steps = some (answer, e')) : e.Starts host answer e' := by
  rw [startAmid] at h
  cases hphase : e.phase.isReady with
  | false =>
    obtain ⟨rfl, rfl⟩ : Except.error _ = answer ∧ e = e' := by simpa [hphase] using h
    exact .refused hphase
  | true =>
    by_cases hcount : e.store.vertexCount = 0
    · obtain ⟨rfl, rfl⟩ : Except.error _ = answer ∧ e = e' := by simpa [hphase, hcount] using h
      exact .empty hphase hcount
    · cases hroom : e.hasRoom host with
      | false =>
        obtain ⟨rfl, rfl⟩ : Except.error _ = answer ∧ e.collapse host = e' := by
          simpa [hphase, hcount, hroom] using h
        exact .cramped hphase hcount hroom
      | true =>
        obtain ⟨last, hlast, hclose⟩ : ∃ last,
            iterateAmid panics host steps (e.launch host) = some last ∧
            last.close host = (answer, e') := by simpa [hphase, hcount, hroom] using h
        have hrun := Team.run_iterateAmid (r := Team.launch host 1 e) hlast
        rw [Team.act_launch] at hrun
        have hstarts := Starts.ran hphase hcount hroom hrun fun w => by
          by_cases hw : w = 0 <;> simp [Team.act, Team.launch, hw]
        change e.Starts host (last.close host).1 (last.close host).2 at hstarts
        rwa [hclose] at hstarts

/-- So is to run them until none is left. -/
theorem Engine.starts_of_start {host : Host} {steps : Nat} {e e' : Engine V E M P}
    {answer : Except Error Unit} (h : e.start host steps = some (answer, e')) :
    e.Starts host answer e' := by
  rw [← startAmid_calm] at h
  exact starts_of_startAmid h

end VertexPrograms
