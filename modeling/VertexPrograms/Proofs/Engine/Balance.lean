import VertexPrograms.Proofs.Engine.Rounds

/-!
# The books of a run

The counts of a run, its failures, its metrics and its pending tasks are kept in different places,
changed at different points of a round and put together at the end. All of them are told by the
rounds, so that they agree with each other when the run is over.
-/

namespace VertexPrograms

variable {V E M P : Type}

namespace Engine

variable {host : Host} {e e' : Engine V E M P} {t : Task P}

/-! # The account -/

/-- What has been kept of a run after the given rounds. -/
structure Account (start : Engine V E M P) (qs : List (Round P)) (e : Engine V E M P) : Prop where
  config : e.config = start.config
  valid : ∃ n, e.scheduler.Valid n
  numbers : qs.map (·.number) = List.range' 1 qs.length
  count : e.updateCount = qs.length
  updates : ∀ name, e.metrics.updates.count name = qs.countP (·.program == name)
  total : e.metrics.totalUpdates = qs.length
  failures : e.failures = qs.flatMap Round.failures
  failed : e.metrics.failures = e.failures.length
  entries : e.registry.entries = start.registry.entries.map fun a => a.ran (qs.length / a.interval)
  due : ∀ q ∈ qs, q.outcomes.map (·.key) = start.registry.due q.number
  passes : ∀ key, e.metrics.passes.count key = (qs.flatMap (·.outcomes)).countP (·.key == key)
  faulty : ∀ q ∈ qs, q.fault.isSome = true → q.created = 0
  aborted : e.scheduler.aborted = (e.config.abortOnError && !e.failures.isEmpty)
  pending : if e.scheduler.aborted then e.scheduler.size = 0
    else e.scheduler.size + qs.length = start.scheduler.size + (qs.map (·.created)).sum

/-- Adding the passes one after another counts them. -/
private theorem count_foldl_add (outcomes : List Registry.Outcome) (c : Counter) (key : String) :
    (outcomes.foldl (fun c o => c.add o.key 1) c).count key = c.count key +
      outcomes.countP (·.key == key) := by
  induction outcomes generalizing c with
  | nil => rfl
  | cons o outcomes ih =>
    rw [List.foldl_cons, ih, Counter.count_add, List.countP_cons, Nat.add_assoc,
      Nat.add_comm (List.countP _ _)]
    simp only [beq_iff_eq]

/-- One round more. -/
theorem Account.round {start : Engine V E M P} {qs : List (Round P)} (h : Account start qs e)
    (host : Host) {s : Scheduler P} (hnext : e.scheduler.next 0 = (.task t, s)) :
    Account start (qs ++ [Engine.round host { e with scheduler := s } t])
      (Engine.execute host { e with scheduler := s } t) := by
  obtain ⟨hrunning, _, _, -, hs⟩ := Scheduler.next_of_task hnext
  have haborted : s.aborted = false := hs ▸ hrunning
  have hsize : s.size + 1 = e.scheduler.size := Scheduler.size_next_of_task hnext
  have hclean : (e.config.abortOnError && !e.failures.isEmpty) = false := h.aborted ▸ hrunning
  have hbefore : e.scheduler.size + qs.length = start.scheduler.size +
      (qs.map (·.created)).sum := by
    simpa [hrunning] using h.pending
  have hvalid : ∃ n, s.Valid n := h.valid.imp fun n hn => by
    have := hn.next 0
    rwa [hnext] at this
  have hdue (count : Nat) : e.registry.due count = start.registry.due count := by
    rw [Registry.due, h.entries]
    exact Registry.due_map_ran ..
  constructor
  case config => exact (execute_config ..).trans h.config
  case valid => exact hvalid.imp fun n hn => valid_execute hn host t
  case numbers =>
    have hnumber : (Engine.round host { e with scheduler := s } t).number = 1 + qs.length :=
      (congrArg (· + 1) h.count).trans (Nat.add_comm ..)
    rw [List.map_append, h.numbers, List.length_append, List.map_singleton,
      List.length_singleton, hnumber, List.range'_1_concat]
  case count => rw [execute_updateCount, List.length_append, List.length_singleton, h.count]
  case updates =>
    intro name
    rw [execute_updates, Counter.count_add, List.countP_append, List.countP_singleton, h.updates]
    simp only [beq_iff_eq]
  case total =>
    rw [Metrics.totalUpdates_eq, execute_updates, Counter.total_add, ← Metrics.totalUpdates_eq,
      h.total,
    List.length_append, List.length_singleton]
  case failures => rw [execute_failures, List.flatMap_append, List.flatMap_singleton, h.failures]
  case failed => rw [execute_failed, execute_failures, List.length_append, h.failed]
  case entries =>
    rw [execute_entries, h.entries, h.count, List.map_map, List.length_append,
      List.length_singleton]
    refine List.map_congr_left fun a _ => ?_
    simp [Registration.div_succ]
  case due =>
    intro q hq
    rcases List.mem_append.mp hq with hq | hq
    · exact h.due q hq
    · rw [List.mem_singleton.mp hq, round_outcomes]
      exact hdue _
  case passes =>
    intro key
    rw [execute_passes, count_foldl_add, List.flatMap_append, List.flatMap_singleton,
      List.countP_append, h.passes]
  case faulty =>
    intro q hq
    rcases List.mem_append.mp hq with hq | hq
    · exact h.faulty q hq
    · rw [List.mem_singleton.mp hq]
      exact fun hfault => round_created _ _ _ hfault
  case aborted =>
    rw [execute_aborted _ _ _ haborted, execute_config, execute_failures]
    cases hstop : e.config.abortOnError with
    | false => rfl
    | true =>
      have hnone : e.failures = [] := by simpa [hstop] using hclean
      rw [hnone, List.nil_append]
  case pending =>
    rw [execute_aborted _ _ _ haborted, execute_size]
    split
    · rfl
    · rw [List.length_append, List.length_singleton, List.map_append, List.sum_append,
        List.map_singleton, List.sum_singleton]
      dsimp only
      omega

/-- The account at the beginning of a run. -/
theorem Account.launch (host : Host) (hsound : e.scheduler.Sound) :
    Account (e.launch host) [] (e.launch host) where
  config := rfl
  valid := ⟨_, hsound.prepare _ _⟩
  numbers := rfl
  count := rfl
  updates name := Counter.count_empty name
  total := by
    rw [Metrics.totalUpdates_eq]
    exact Counter.total_empty
  failures := rfl
  failed := rfl
  entries := by simp
  due := nofun
  passes key := Counter.count_empty key
  faulty := nofun
  aborted := by simp [Engine.launch, Scheduler.prepare, Scheduler.rewind]
  pending := by simp [Engine.launch, Scheduler.prepare, Scheduler.rewind]

/-- A run stops when nothing is pending, and with it the account. -/
private theorem Account.stop {start : Engine V E M P} {qs : List (Round P)} (h : Account start qs e)
    {answer : Handout P} {s : Scheduler P} (hnext : e.scheduler.next 0 = (answer, s))
    (ht : ∀ t, answer ≠ .task t) : Account start qs { e with scheduler := s } ∧ s.size = 0 := by
  have hvalid : ∃ n, s.Valid n := h.valid.imp fun n hn => by
    have := hn.next 0
    rwa [hnext] at this
  have hempty : e.scheduler.size = 0 := by
    cases haborted : e.scheduler.aborted with
    | true => simpa [haborted] using h.pending
    | false =>
      obtain ⟨n, hn⟩ := h.valid
      rcases hn.next_cases haborted 0 with ⟨hnil, -⟩ | ⟨v, p, agenda, -, -, -, -, htask⟩
      · rw [← Scheduler.length_inOrder, hnil, List.length_nil]
      · exact absurd (congrArg Prod.fst (hnext.symm.trans htask)) (ht _)
  obtain ⟨agenda, rfl⟩ := Scheduler.next_of_not_task hnext ht
  exact ⟨⟨h.config, hvalid, h.numbers, h.count, h.updates, h.total, h.failures, h.failed, h.entries,
    h.due, h.passes, h.faulty, h.aborted, h.pending⟩, hempty⟩

/-- A run keeps its account round by round, and ends with nothing pending. -/
theorem Account.iterate {start : Engine V E M P} {steps : Nat} {qs : List (Round P)}
    (h : Account start qs e) (hlast : Engine.iterate host steps e = some e') :
    Account start (qs ++ Engine.rounds host steps e) e' ∧ e'.scheduler.size = 0 := by
  induction steps generalizing e qs with
  | zero => cases hlast
  | succ steps ih =>
    rw [Engine.iterate, Engine.step] at hlast
    rw [Engine.rounds]
    rcases hnext : e.scheduler.next 0 with ⟨answer, s⟩
    rw [hnext] at hlast
    cases answer with
    | task t =>
      have hround := ih (h.round host hnext) hlast
      rwa [List.append_assoc, List.singleton_append] at hround
    | finished | blocked =>
      obtain rfl := Option.some.inj hlast
      rw [List.append_nil]
      exact h.stop hnext (by simp)

end Engine

/-! # Failures -/

/-- Whether an update failed, and not a pass. -/
def Failure.isUpdate (f : Failure) : Bool :=
  match f.source with
  | .update _ _ => true
  | .aggregator _ => false

namespace Registry

/-- The failures of passes are told at their count, and are none of updates. -/
theorem of_mem_failuresOf {count : Nat} {outcomes : List Outcome} {f : Failure}
    (h : f ∈ failuresOf count outcomes) : f.atUpdate = count ∧ f.isUpdate = false := by
  obtain ⟨o, -, ho⟩ := List.mem_filterMap.mp h
  obtain ⟨fault, -, rfl⟩ := Option.map_eq_some_iff.mp ho
  exact ⟨rfl, rfl⟩

/-- There is one failure for each pass with a fault. -/
theorem length_failuresOf (count : Nat) (outcomes : List Outcome) :
    (failuresOf count outcomes).length = outcomes.countP (·.fault.isSome) := by
  induction outcomes with
  | nil => rfl
  | cons o outcomes ih => cases hfault : o.fault <;> simp_all [failuresOf]

end Registry

namespace Round

variable {q : Round P} {qs : List (Round P)}

/-- The failures of a round are told at its number. -/
theorem atUpdate_of_mem {f : Failure} (h : f ∈ q.failures) : f.atUpdate = q.number := by
  rcases List.mem_append.mp h with h | h
  · obtain ⟨fault, -, rfl⟩ := Option.map_eq_some_iff.mp (Option.mem_toList.mp h)
    rfl
  · exact (Registry.of_mem_failuresOf h).1

/-- A round has a failure for its update, if that fails, and one for each pass that does. -/
theorem length_failures (q : Round P) :
    q.failures.length = q.fault.isSome.toNat + q.outcomes.countP (·.fault.isSome) := by
  rw [failures, List.length_append, Registry.length_failuresOf]
  cases q.fault <;> rfl

/-- A run fails as often as its updates and its passes do. -/
theorem length_flatMap_failures (qs : List (Round P)) : (qs.flatMap failures).length =
    qs.countP (·.fault.isSome) + (qs.flatMap (·.outcomes)).countP (·.fault.isSome) := by
  induction qs with
  | nil => rfl
  | cons q qs ih =>
    rw [List.flatMap_cons, List.flatMap_cons, List.length_append, List.countP_append,
      List.countP_cons, ih, length_failures]
    cases q.fault.isSome <;> simp <;> omega

/-- Of the failures of a round at most one is that of an update, and it is under the number of the
round. -/
private theorem countP_failures_le (q : Round P) (k : Nat) :
    q.failures.countP (fun f => f.isUpdate && f.atUpdate == k) ≤ if q.number = k then 1 else 0 := by
  have hpasses : (Registry.failuresOf q.number q.outcomes).countP (fun f => f.isUpdate &&
      f.atUpdate == k) = 0 := by
    refine List.countP_eq_zero.mpr fun f hf => ?_
    simp [(Registry.of_mem_failuresOf hf).2]
  rw [failures, List.countP_append, hpasses]
  cases q.fault with
  | none => exact Nat.zero_le _
  | some fault => by_cases hk : q.number = k <;> simp [Failure.isUpdate, hk]

/-- Under each number there is at most one failure of an update. -/
theorem countP_failures_le_one (h : (qs.map (·.number)).Nodup) (k : Nat) :
    (qs.flatMap failures).countP (fun f => f.isUpdate && f.atUpdate == k) ≤ 1 := by
  have hle : (qs.flatMap failures).countP (fun f => f.isUpdate && f.atUpdate == k) ≤
      (qs.map (·.number)).count k := by
    clear h
    induction qs with
    | nil => exact Nat.zero_le _
    | cons q qs ih =>
      have hq := q.countP_failures_le k
      rw [List.flatMap_cons, List.countP_append, List.map_cons, List.count_cons]
      simp only [beq_iff_eq]
      omega
  exact Nat.le_trans hle (List.nodup_iff_count_le_one.mp h k)

/-- The failures of rounds in order are in order. -/
theorem report_failures (h : (qs.map (·.number)).Pairwise (· < ·)) :
    Failure.report (qs.flatMap failures) = qs.flatMap failures := by
  refine List.mergeSort_of_pairwise (List.pairwise_flatMap.mpr ⟨fun q _ => ?_, ?_⟩)
  · refine List.pairwise_of_forall_mem_list fun f hf f' hf' => ?_
    rw [atUpdate_of_mem hf, atUpdate_of_mem hf']
    exact decide_eq_true (Nat.le_refl _)
  · refine (List.pairwise_map.mp h).imp fun hlt f hf f' hf' => ?_
    rw [atUpdate_of_mem hf, atUpdate_of_mem hf']
    exact decide_eq_true (Nat.le_of_lt hlt)

end Round

/-! # The end of a run -/

namespace Engine

variable {host : Host} {e e' : Engine V E M P} {answer : Except Error Unit} {steps : Nat}

section Close

variable (host : Host) (e : Engine V E M P)

theorem close_updateCount : (e.close host).2.updateCount = e.updateCount := by
  rw [close]; dsimp only; split <;> rfl

/-- The failures of a run that is closed are told in their order. -/
theorem close_failures : (e.close host).2.failures = Failure.report e.failures := by
  rw [close]; dsimp only; split <;> rfl

theorem close_registry : (e.close host).2.registry = e.registry := by
  rw [close]; dsimp only; split <;> rfl

/-- The metrics of a run that is closed keep the counts. -/
theorem close_metrics : (e.close host).2.metrics = { e.metrics with
    workers := e.config.resolvedWorkers host.processors
    started := true
    lastUpdateCount := e.updateCount } := by
  rw [close]; dsimp only; split <;> rfl

theorem close_aborted : (e.close host).2.scheduler.aborted = e.scheduler.aborted := by
  rw [close]; dsimp only; split <;> rfl

/-- Where nothing is pending, closing leaves nothing pending. -/
theorem close_size (h : e.scheduler.size = 0) : (e.close host).2.scheduler.size = 0 := by
  rw [close]
  dsimp only
  split
  · exact Std.ExtTreeMap.size_empty
  · exact h

/-- A run answers with an error if it has failures and these are to end it. -/
theorem close_answer :
    (e.close host).1 = .ok () ↔
    (e.config.abortOnError && !(Failure.report e.failures).isEmpty) = false := by
  rw [close]
  dsimp only
  cases e.config.abortOnError <;> cases Failure.report e.failures <;> simp

/-- A run that ends well leaves what is pending. -/
theorem close_scheduler (h : (e.close host).1 = .ok ()) :
    (e.close host).2.scheduler = e.scheduler := by
  rw [close] at h ⊢
  dsimp only at h ⊢
  split at h
  · cases h
  · rfl

end Close

/-- A run that is not refused is the closing of its last state. -/
theorem start_eq_some (hready : e.phase.isReady = true) (hcount : e.store.vertexCount ≠ 0)
    (hroom : e.hasRoom host = true) (hstart : e.start host steps = some (answer, e')) :
    ∃ last, iterate host steps (e.launch host) = some last ∧ last.close host = (answer, e') := by
  simpa [start, hready, hcount, hroom] using hstart

/-- The books of a run that is over balance: what is kept of it is told by its rounds. -/
structure Balanced (e : Engine V E M P) (answer : Except Error Unit) (e' : Engine V E M P)
    (qs : List (Round P)) : Prop where
  /-- Every task that was handed out has been counted. -/
  count : e'.updateCount = qs.length
  last : e'.metrics.lastUpdateCount = qs.length
  total : e'.metrics.totalUpdates = qs.length
  updates : ∀ name, e'.metrics.updates.count name = qs.countP (·.program == name)
  failures : e'.failures = qs.flatMap Round.failures
  failed : e'.metrics.failures = e'.failures.length
  /-- The failures are those of updates and those of passes. -/
  length : e'.failures.length =
    qs.countP (·.fault.isSome) + (qs.flatMap (·.outcomes)).countP (·.fault.isSome)
  once : ∀ k, e'.failures.countP (fun f => f.isUpdate && f.atUpdate == k) ≤ 1
  passes : ∀ key, e'.metrics.passes.count key = (qs.flatMap (·.outcomes)).countP (·.key == key)
  idle : e'.scheduler.size = 0
  completed : e'.phase = .completed
  answer : answer = .ok () ↔ e'.scheduler.aborted = false
  /-- Unless the run was aborted, all pending tasks and all that were created have been run. -/
  created : e'.scheduler.aborted = false →
    e'.updateCount = e.scheduler.size + (qs.map (·.created)).sum
  faulty : ∀ q ∈ qs, q.fault.isSome = true → q.created = 0

/-- An account that has come to its end is closed. -/
theorem Account.balanced {qs : List (Round P)} (h : Account (e.launch host) qs e')
    (hidle : e'.scheduler.size = 0) : Balanced e (e'.close host).1 (e'.close host).2 qs := by
  have hascending : (qs.map (·.number)).Pairwise (· < ·) := h.numbers ▸ List.pairwise_lt_range'
  have hnodup : (qs.map (·.number)).Nodup := hascending.imp Nat.ne_of_lt
  have hreport : Failure.report e'.failures = e'.failures := by
    rw [h.failures]
    exact Round.report_failures hascending
  have hfailures : (e'.close host).2.failures = e'.failures :=
    (close_failures host e').trans hreport
  have hmetrics := close_metrics host e'
  constructor
  case count => rw [close_updateCount, h.count]
  case last => rw [hmetrics, h.count]
  case total =>
    rw [hmetrics]
    exact h.total
  case updates =>
    rw [hmetrics]
    exact h.updates
  case failures => rw [hfailures, h.failures]
  case failed => rw [hmetrics, hfailures, h.failed]
  case length => rw [hfailures, h.failures, Round.length_flatMap_failures]
  case once =>
    rw [hfailures, h.failures]
    exact Round.countP_failures_le_one hnodup
  case passes =>
    rw [hmetrics]
    exact h.passes
  case idle => exact close_size host e' hidle
  case completed => exact (close_cases host e').1
  case answer => rw [close_answer, close_aborted, hreport, h.aborted]
  case created =>
    intro haborted
    rw [close_aborted] at haborted
    have hpending := h.pending
    rw [haborted, hidle, Nat.zero_add] at hpending
    rw [close_updateCount, h.count]
    exact hpending
  case faulty => exact h.faulty

/-- A task for a vertex that is found is pushed. -/
theorem schedule_of_locate {raw : Int} {v : VertexIndex} {program : P} {priority : Priority}
    (hphase : e.phase.isIdle = true) (hv : e.locate raw = .ok v) : e.schedule raw program priority =
      (.ok (), { e with
        scheduler := (e.scheduler.push ⟨v, priority, program⟩).2 }.markConfigured) := by
  rw [Engine.schedule, Operation.during, if_pos hphase, Operation.setUp, Operation.change, hv]
  rfl

/-- A task for a vertex that is found becomes pending, as one call. -/
theorem moves_schedule {raw : Int} {v : VertexIndex} {program : P} {priority : Priority}
    (hphase : e.phase.isIdle = true) (hv : e.locate raw = .ok v) :
    Moves e { e with scheduler := (e.scheduler.push ⟨v, priority, program⟩).2 }.markConfigured := by
  have hmoves := Moves.call (e := e) (.schedule raw program priority)
  rwa [Call.perform, schedule_of_locate hphase hv] at hmoves

/-- The engine with a pass that fails after every update, and a task. -/
def primed : Engine Nat Nat Unit Unit :=
  { tallied with
    registry := ⟨[{
      key := "sum"
      interval := 1
      pass := fun _ _ g => (.error (.panicked none), g) }]⟩
    scheduler := (tallied.scheduler.push ⟨0, .zero, ()⟩).2 }

theorem history_primed : History tally primed := by
  have hadd : Moves tallied { tallied with registry := primed.registry } :=
    Moves.call (e := tallied) (.addAggregator "sum" (fun _ _ g => (.error (.panicked none), g)) 1)
  have hvalid := ((Lawful.new _ _ _ _).history (.single moves_tally)).valid
  have hlocate : Engine.locate { tallied with registry := primed.registry } 7 = .ok 0 :=
    hvalid.topology.require_eq rfl
  exact ((Relation.ReflTransGen.single moves_tally).tail hadd).tail (moves_schedule rfl hlocate)

/-- With its one task handed out in order of creation, the engine is ready to run. -/
theorem launch_primed : primed.launch {} =
    { primed.launch {} with
      scheduler :=
        { primed.scheduler with agenda := .queue (({} : Queue VertexIndex).push 0) } } := by
  have horder : primed.scheduler.inOrder = [(0, ⟨.zero, 0, ()⟩)] := List.mergeSort_singleton _
  simp only [launch, Scheduler.prepare, horder]
  rfl

/-- A program that fails on the first vertex, and elsewhere asks for the neighbours. -/
def demanding : Unit → Program Nat Nat Unit Unit := fun _ =>
  { name := "ask"
    update := fun s => if s.centre = 0 then .fail (.reported ["no"])
      else .request (.neighbours .zero) fun _ => .done }

/-- Two vertices. -/
def couple : Store Nat Nat :=
  { topology := (({} : Topology).pushVertex 7).pushVertex 8, cells := { vertices := #[10, 20] } }

/-- The second vertex is added to a store. -/
theorem addVertex_couple : tallied.store.addVertex 8 20 = .ok (1, couple) := by
  have hnew : tallied.store.topology.indexOf? 8 = none := by
    simp [tallied, Topology.indexOf?, Topology.pushVertex]
  rw [Store.addVertex, if_neg (by decide), Topology.addVertex, hnew]
  rfl

/-- An engine with two vertices and an edge between them. -/
def paired : Engine Nat Nat Unit Unit :=
  { Engine.new { workerThreads := 1 } 1 demanding () with
    phase := .configured
    store := { topology := couple.topology.pushEdge 1 0, cells := { couple.cells with
      edges := #[5] } } }

theorem history_paired : History (Engine.new { workerThreads := 1 } 1 demanding ()) paired := by
  have hfirst := moves_addVertex (e := Engine.new { workerThreads := 1 } 1 demanding ()) 7
    rfl rfl addVertex_tallied
  have hsecond :=
    moves_addVertex (e := { paired with store := tallied.store }) 8 rfl rfl addVertex_couple
  have hcouple := Relation.ReflTransGen.tail (.single hfirst) hsecond
  have hvalid : couple.topology.Valid := ((Lawful.new _ _ _ _).history hcouple).valid.topology
  have hsource : couple.topology.require 8 = .ok 1 := hvalid.require_eq rfl
  have htarget : couple.topology.require 7 = .ok 0 := hvalid.require_eq rfl
  have hadd : couple.addEdge 8 7 5 = .ok (0, paired.store) := by
    rw [Store.addEdge, if_neg (by decide), Topology.addEdge, hsource, htarget]
    dsimp only
    rw [if_neg (by simp [couple, Topology.edgeBetween?, Topology.pushVertex])]
    rfl
  exact hcouple.tail (moves_addEdge (e := { paired with store := couple }) 8 7 rfl rfl rfl hadd)

/-- The engine with a task for each vertex. That of the first one fails, and that of the second one
asks for another. -/
def burdened : Engine Nat Nat Unit Unit :=
  { paired with scheduler := ((paired.scheduler.push ⟨0, .zero, ()⟩).2.push ⟨1, .zero, ()⟩).2 }

theorem history_burdened : History (Engine.new { workerThreads := 1 } 1 demanding ()) burdened := by
  have hvalid := ((Lawful.new _ _ _ _).history history_paired).valid.topology
  have hlocate : paired.locate 7 = .ok 0 := hvalid.require_eq rfl
  have hlocate' : paired.locate 8 = .ok 1 := hvalid.require_eq rfl
  exact (history_paired.tail (moves_schedule rfl hlocate)).tail
    (moves_schedule (e := { paired with scheduler := (paired.scheduler.push ⟨0, .zero, ()⟩).2 })
      rfl hlocate')

/-- With its two tasks handed out in order of creation, the engine is ready to run. -/
theorem launch_burdened : burdened.launch {} =
    { burdened.launch {} with
      scheduler := { burdened.scheduler with
        agenda := .queue ((({} : Queue VertexIndex).push 0).push 1) } } := by
  have horder : burdened.scheduler.inOrder = [(0, ⟨.zero, 0, ()⟩), (1, ⟨.zero, 1, ()⟩)] :=
    List.mergeSort_of_pairwise (by decide)
  simp only [launch, Scheduler.prepare, horder]
  rfl

end Engine

end VertexPrograms
