import VertexPrograms.Proofs.Engine.Stages

/-!
# The books of a run that may be cut off

A run of one worker goes as it would if user code never panicked where nothing catches it, until
that happens. Then one task is left handed out and the metrics of the run are lost, but the failures
and the pending tasks are still told by the rounds before.
-/

namespace VertexPrograms

variable {V E M P : Type}

namespace Engine

variable {panics : Panics V E M P} {host : Host} {e e' before left : Engine V E M P} {t : Task P}
  {answer : Except Error Unit} {steps : Nat}

/-! # How far a run comes -/

/-- From where a run has come to, it goes to its end, or comes to the first task on which the worker
is cut off. -/
theorem Comes.amid {ss : List (Stage V E M P)} (h : Comes host e ss before)
    (hend : iterateAmid panics host steps before = some e') :
    (iterate host steps before = some e' ∧
      ∀ r ∈ Engine.stages host steps before, Engine.cutOff? panics host r.engine r.task = none) ∨
      ∃ ss' before' t s left, Comes host e (ss ++ ss') before' ∧
        before'.scheduler.next 0 = (.task t, s) ∧
        (∀ r ∈ ss', Engine.cutOff? panics host r.engine r.task = none) ∧
        Engine.cutOff? panics host { before' with scheduler := s } t = some left ∧
        e' = { left with metrics := {} } := by
  induction steps generalizing before ss with
  | zero => cases hend
  | succ steps ih =>
    rw [iterateAmid] at hend
    rw [iterate, step, Engine.stages]
    rcases hnext : before.scheduler.next 0 with ⟨answer, s⟩
    rw [hnext] at hend
    cases answer with
    | task t =>
      dsimp only at hend ⊢
      cases hcut : Engine.cutOff? panics host { before with scheduler := s } t with
      | some left =>
        rw [hcut] at hend
        exact .inr ⟨[], before, t, s, left, by rwa [List.append_nil], hnext,
          List.forall_mem_nil _, hcut, (Option.some.inj hend).symm⟩
      | none =>
        rw [hcut] at hend
        refine (ih (h.on hnext) hend).imp ?_ ?_
        · rintro ⟨hiterate, hnever⟩
          exact ⟨hiterate, List.forall_mem_cons.mpr ⟨hcut, hnever⟩⟩
        · rintro ⟨ss', before', t', s', left, hcomes, hnext', hnever, hleft⟩
          exact ⟨_ :: ss', before', t', s', left, by rwa [List.append_cons], hnext',
            List.forall_mem_cons.mpr ⟨hcut, hnever⟩, hleft⟩
    | finished | blocked => exact .inl ⟨hend, List.forall_mem_nil _⟩

/-- A run that is not refused is the closing of its last state. -/
theorem startAmid_eq_some (hready : e.phase.isReady = true) (hcount : e.store.vertexCount ≠ 0)
    (hroom : e.hasRoom host = true) (hstart : e.startAmid panics host steps = some (answer, e')) :
    ∃ last, iterateAmid panics host steps (e.launch host) = some last ∧
      last.close host = (answer, e') := by
  simpa [startAmid, hready, hcount, hroom] using hstart

/-! # What is left -/

end Engine

/-- The round of a task that was cut off after its update has been reported. -/
def Round.severed (q : Round P) : Round P := { q with outcomes := [] }

namespace Engine

variable {panics : Panics V E M P} {host : Host} {e e' before left : Engine V E M P} {t : Task P}
  {answer : Except Error Unit} {steps : Nat}

/-- What a worker who is cut off leaves of a task: whether its update has been counted, and what has
been recorded. -/
structure Left (host : Host) (e : Engine V E M P) (t : Task P) (counted : Bool) (fs : List Failure)
    (left : Engine V E M P) : Prop where
  config : left.config = e.config
  count : left.updateCount = e.updateCount + counted.toNat
  failures : left.failures = e.failures ++ fs
  reported : fs = [] ∨ counted = true ∧ fs = (e.round host t).severed.failures
  aborted : left.scheduler.aborted = (e.config.abortOnError && !fs.isEmpty)
  size : left.scheduler.aborted = false →
    left.scheduler.size = e.scheduler.size + if counted = true then (e.round host t).created else 0

/-- The update has been counted, and its failure is not recorded. -/
private theorem left_updated (h : e.scheduler.aborted = false) : Left host e t true []
    (e.updated host t) where
  config := by rw [updated_eq]
  count := by rw [updated_eq]; rfl
  failures := by rw [updated_eq, List.append_nil]
  reported := .inl rfl
  aborted := by
    rw [updated_eq, List.isEmpty_nil, Bool.not_true, Bool.and_false]
    exact (Scheduler.aborted_pushAll ..).trans h
  size _ := by
    rw [updated_eq]
    exact Scheduler.size_pushAll ..

/-- The failure of the update is recorded, if there is one. -/
private theorem left_report (h : e.scheduler.aborted = false) :
    Left host e t true (e.round host t).severed.failures
      ((e.updated host t).report t (e.ending t).1) := by
  have hleft : Left host e t true [] (e.updated host t) := left_updated h
  have hfailures : (e.round host t).severed.failures =
      ((e.ending t).1.map fun fault => e.updateFailure t fault (e.updateCount + 1)).toList :=
        List.append_nil _
  cases hfault : (e.ending t).1 with
  | none =>
    rw [hfailures, hfault]
    exact hleft
  | some fault =>
    have hhalted : ((e.updated host t).report t (some fault)).scheduler.aborted =
        e.config.abortOnError := by
      rw [report, recordFailure, hleft.config]
      dsimp only
      cases e.config.abortOnError with
      | true => rfl
      | false => simpa using hleft.aborted
    refine ⟨hleft.config, hleft.count, ?_, .inr ⟨rfl, rfl⟩, ?_, fun hgoes => ?_⟩
    · rw [hfailures, hfault, report, recordFailure, updated_eq]
      rfl
    · rw [hhalted, hfailures, hfault]
      simp
    · rw [hhalted] at hgoes
      rw [report, recordFailure, hleft.config, hgoes]
      exact hleft.size (by simpa using hleft.aborted)

/-- Whoever is cut off leaves one of these. -/
theorem exists_left (h : e.scheduler.aborted = false) (hcut : e.cutOff? panics host t = some left) :
    ∃ counted fs, Left host e t counted fs left := by
  have huncounted {u : Engine V E M P} (hconfig : u.config = e.config)
      (hcount : u.updateCount = e.updateCount) (hfailures : u.failures = e.failures)
      (hscheduler : u.scheduler = e.scheduler) : Left host e t false [] u :=
    ⟨hconfig, hcount, by rw [hfailures, List.append_nil], .inl rfl, by simp [hscheduler, h],
      fun _ => congrArg Scheduler.size hscheduler⟩
  have hrun : e.runUpdate host t = ((e.ending t).1, e.updated host t) := rfl
  rw [cutOff?, hrun] at hcut
  dsimp only at hcut
  split at hcut
  · obtain rfl := Option.some.inj hcut
    exact ⟨false, [], huncounted rfl rfl rfl rfl⟩
  · split at hcut
    · obtain rfl := Option.some.inj hcut
      exact ⟨false, [], huncounted rfl rfl rfl rfl⟩
    · split at hcut
      · obtain rfl := Option.some.inj hcut
        exact ⟨true, [], left_updated h⟩
      · obtain ⟨⟨entries, globals⟩, -, rfl⟩ := Option.map_eq_some_iff.mp hcut
        have hreport : Left host e t true (e.round host t).severed.failures _ := left_report h
        obtain ⟨hconfig, hcount, hfailures, hreported, haborted, hsize⟩ := hreport
        exact ⟨true, _, hconfig, hcount, hfailures, hreported, haborted, hsize⟩

/-! # The books -/

/-- The books of a run whose worker was cut off in a task, after so many rounds. The task has been
handed out, but has perhaps not been counted; and the metrics of the run are lost. -/
structure Severed (e : Engine V E M P) (qs : List (Round P)) (q : Round P)
    (answer : Except Error Unit) (e' : Engine V E M P) : Prop where
  number : q.number = qs.length + 1
  count : e'.updateCount = qs.length ∨ e'.updateCount = q.number
  last : e'.metrics.lastUpdateCount = e'.updateCount
  total : e'.metrics.totalUpdates = 0
  updates : ∀ name, e'.metrics.updates.count name = 0
  passes : ∀ key, e'.metrics.passes.count key = 0
  failed : e'.metrics.failures = 0
  /-- The failures of the rounds are told, and perhaps that of the update of the task. -/
  failures : e'.failures = qs.flatMap Round.failures ∨
    e'.failures = qs.flatMap Round.failures ++ q.severed.failures
  completed : e'.phase = .completed
  answer : answer = .ok () ↔ e'.scheduler.aborted = false
  /-- Unless the run was aborted, what has been created and not handed out is left pending. -/
  pending : e'.scheduler.aborted = false → e'.scheduler.size + q.number =
    e.scheduler.size + (qs.map (·.created)).sum + if e'.updateCount = q.number then q.created else 0

section

variable {qs : List (Round P)} {s : Scheduler P} {counted : Bool} {fs : List Failure}

/-- The failures that are left are those of the rounds before, and perhaps of the update. -/
private theorem Account.failures_left (h : Account (e.launch host) qs before)
    (hleft : Left host { before with scheduler := s } t counted fs left) :
    left.failures = qs.flatMap Round.failures ++ fs :=
  h.failures ▸ hleft.failures

/-- They are in order already. -/
private theorem Account.report_left (h : Account (e.launch host) qs before)
    (hleft : Left host { before with scheduler := s } t counted fs left) :
    Failure.report left.failures = left.failures := by
  rw [h.failures_left hleft]
  rcases hleft.reported with rfl | ⟨-, rfl⟩
  · rw [List.append_nil]
    exact Round.report_failures (h.numbers ▸ List.pairwise_lt_range')
  · have hnumber : (Engine.round host { before with scheduler := s } t).severed.number =
        1 + qs.length :=
      (congrArg (· + 1) h.count).trans (Nat.add_comm ..)
    have hascending : ((qs ++ [(Engine.round host { before with scheduler := s } t).severed]).map
        (·.number)).Pairwise (· < ·) := by
      rw [List.map_append, h.numbers, List.map_singleton, hnumber, ← List.range'_1_concat]
      exact List.pairwise_lt_range'
    have hreport := Round.report_failures hascending
    rwa [List.flatMap_append, List.flatMap_singleton] at hreport

/-- The run has been aborted exactly if there are failures and they are to end it. -/
private theorem Account.aborted_left (h : Account (e.launch host) qs before)
    (hrunning : before.scheduler.aborted = false)
    (hleft : Left host { before with scheduler := s } t counted fs left) :
    (left.config.abortOnError && !left.failures.isEmpty) = left.scheduler.aborted := by
  -- A run that goes on to another task has no failures yet that are to end it.
  have hclean : (before.config.abortOnError && !(qs.flatMap Round.failures).isEmpty) = false :=
    h.failures ▸ h.aborted ▸ hrunning
  rw [hleft.aborted, hleft.config, h.failures_left hleft]
  cases hstop : before.config.abortOnError with
  | false => rfl
  | true =>
    have hnone : qs.flatMap Round.failures = [] := by simpa [hstop] using hclean
    rw [hnone, List.nil_append]

end

/-- What is left of a run that was cut off is closed, and its books tell of the rounds before. -/
theorem Account.severed {qs : List (Round P)} {s : Scheduler P}
    (h : Account (e.launch host) qs before) (hnext : before.scheduler.next 0 = (.task t, s))
    (hcut : Engine.cutOff? panics host { before with scheduler := s } t = some left) :
    Severed e qs (Engine.round host { before with scheduler := s } t)
      (close host { left with metrics := {} }).1 (close host { left with metrics := {} }).2 := by
  obtain ⟨hrunning, _, _, -, hs⟩ := Scheduler.next_of_task hnext
  have haborted : s.aborted = false := hs ▸ hrunning
  obtain ⟨counted, fs, hleft⟩ := exists_left (e := { before with scheduler := s }) haborted hcut
  have hnumber : (Engine.round host { before with scheduler := s } t).number = qs.length + 1 :=
    congrArg (· + 1) h.count
  have hleftCount : left.updateCount = qs.length + counted.toNat := h.count ▸ hleft.count
  have hreport := h.report_left hleft
  have hanswer := h.aborted_left hrunning hleft
  have hmetrics := close_metrics host { left with metrics := {} }
  have hok : (close host { left with metrics := {} }).1 = .ok () ↔
      left.scheduler.aborted = false := by
    rw [close_answer, ← hanswer]
    dsimp only
    rw [hreport]
  constructor
  case number => exact hnumber
  case completed => exact (close_cases host _).1
  case count =>
    rw [close_updateCount, hnumber]
    cases counted with
    | false => exact .inl hleftCount
    | true => exact .inr hleftCount
  case last => rw [hmetrics, close_updateCount]
  case total =>
    rw [hmetrics, Metrics.totalUpdates_eq]
    exact Counter.total_empty
  case updates =>
    rw [hmetrics]
    exact Counter.count_empty
  case passes =>
    rw [hmetrics]
    exact Counter.count_empty
  case failed => rw [hmetrics]
  case failures =>
    rw [close_failures]
    dsimp only
    rw [hreport, h.failures_left hleft]
    rcases hleft.reported with rfl | ⟨-, rfl⟩
    · exact .inl (List.append_nil _)
    · exact .inr rfl
  case answer => rw [hok, close_aborted]
  case pending =>
    intro hgoes
    rw [close_aborted] at hgoes
    have hbefore : before.scheduler.size + qs.length = e.scheduler.size +
        (qs.map (·.created)).sum := by
      have hpending := h.pending
      rwa [hrunning] at hpending
    have hsize : s.size + 1 = before.scheduler.size := Scheduler.size_next_of_task hnext
    have hleftSize := hleft.size hgoes
    rw [close_scheduler _ _ (hok.mpr hgoes), close_updateCount, hnumber]
    dsimp only at hleftSize ⊢
    rw [hleftSize, hleftCount]
    cases counted with
    | false =>
      simp only [Bool.false_eq_true, if_false, Bool.toNat_false, Nat.add_zero]
      rw [if_neg (by omega)]
      omega
    | true =>
      simp only [if_true, Bool.toNat_true]
      omega

/-- Whatever has been done with an engine before, and however its programs and aggregators fail, the
run of one worker ends in one of two ways. If user code panics nowhere but in updates and passes,
the books of the run balance: the number of updates, the counts by program, the failures and the
pending tasks are those of the tasks that were handed out, one after another. Otherwise the worker
is cut off in the first task on which user code panics elsewhere. Then the run is over, its metrics
are lost, and what is left is told by the rounds before. -/
theorem start_balanced {config : Config} {processors : Nat} {programs : P → Program V E M P}
    {memory : M} (h : History (Engine.new config processors programs memory) e)
    (hworkers : e.config.resolvedWorkers host.processors = 1) (hready : e.phase.isReady = true)
    (hcount : e.store.vertexCount ≠ 0)
    (hstart : e.startAmid panics host steps = some (answer, e')) :
    ((∀ r ∈ stages host steps (e.launch host), Engine.cutOff? panics host r.engine r.task = none) ∧
      e.start host steps = some (answer, e') ∧
      Balanced e answer e' (Engine.rounds host steps (e.launch host))) ∨
    ∃ ss before t s, Comes host (e.launch host) ss before ∧ before.scheduler.next 0 = (.task t, s) ∧
      (∀ r ∈ ss, Engine.cutOff? panics host r.engine r.task = none) ∧
      (Engine.cutOff? panics host { before with scheduler := s } t).isSome = true ∧
      Severed e (ss.map (Stage.round host)) (Engine.round host { before with scheduler := s } t)
        answer e' := by
  have hlawful := (Lawful.new config processors programs memory).history h
  have hroom : e.hasRoom host = true := hasRoom_of_one hworkers
  have haccount := Account.launch host hlawful.tasks.sound
  obtain ⟨last, hlast, hclose⟩ := startAmid_eq_some hready hcount hroom hstart
  rcases Comes.here.amid hlast with ⟨hlast, hnever⟩ |
    ⟨ss, before, t, s, left, hcomes, hnext, hnever, hcut, rfl⟩
  · refine .inl ⟨hnever, ?_, ?_⟩
    · rw [start_eq hready hcount hroom, hlast, Option.map_some, hclose]
    · obtain ⟨haccount, hidle⟩ := haccount.iterate hlast
      have hbalanced := haccount.balanced hidle
      rwa [hclose] at hbalanced
  · have hsevered := (haccount.comes hcomes).severed hnext hcut
    rw [hclose] at hsevered
    exact .inr ⟨ss, before, t, s, hcomes, hnext, hnever, by rw [hcut]; rfl, hsevered⟩

/-- The run of three updates. The first and the last one fail, and the second one creates the task
of the last one. -/
theorem start_balanced_burdened :
    ∃ e', burdened.startAmid {} {} 4 = some (.ok (), e') ∧
      Balanced burdened (.ok ()) e' (rounds {} 4 (burdened.launch {})) ∧ e'.updateCount = 3 ∧
      e'.failures.length = 2 ∧ (rounds {} 4 (burdened.launch {})).map (·.created) = [0, 1, 0] := by
  obtain ⟨e', hstart⟩ : ∃ e', burdened.startAmid {} {} 4 = some (.ok (), e') := by
    have hstart :
        burdened.startAmid {} {} 4 = (iterateAmid {} {} 4 (burdened.launch {})).map (close {}) :=
          rfl
    rw [hstart, iterateAmid_calm, launch_burdened]
    exact ⟨_, rfl⟩
  have hcreated : (rounds {} 4 (burdened.launch {})).map (·.created) = [0, 1, 0] := by
    rw [launch_burdened]
    rfl
  have hfailures : ((rounds {} 4 (burdened.launch {})).flatMap Round.failures).length = 2 := by
    rw [launch_burdened]
    rfl
  rcases start_balanced history_burdened rfl rfl (by decide) hstart with
    ⟨-, -, hbalanced⟩ | ⟨ss, before, t, s, -, -, -, hcut, -⟩
  · have hlength : (rounds {} 4 (burdened.launch {})).length = 3 := by
      simpa using congrArg List.length hcreated
    exact ⟨e', hstart, hbalanced, hbalanced.count.trans hlength, hbalanced.failures ▸ hfailures,
      hcreated⟩
  · rw [cutOff?_calm] at hcut
    cases hcut

/-- Where a program panics that is asked for its level, the run ends well: one task has been handed
out and the other one is left pending, no update has been counted, and no failure is told. Where it
panics that is asked for its name, the update has been counted, but the metrics do not tell of it.
-/
theorem exists_severed :
    History (Engine.new { workerThreads := 1 } 1 demanding ()) burdened ∧
      (∃ e', burdened.startAmid { level := fun _ _ => true } {} 1 = some (.ok (), e') ∧
        e'.phase = .completed ∧ e'.scheduler.size = 1 ∧ e'.updateCount = 0 ∧ e'.failures = []) ∧
      ∃ e', burdened.startAmid { name := fun _ _ => true } {} 1 = some (.ok (), e') ∧
        e'.updateCount = 1 ∧ e'.metrics.lastUpdateCount = 1 ∧ e'.metrics.totalUpdates = 0 := by
  have hclosed {panics : Panics Nat Nat Unit Unit} {last : Engine Nat Nat Unit Unit}
      (hlast : iterateAmid panics {} 1 (burdened.launch {}) = some last)
      (hconfig : last.config.abortOnError = false) : burdened.startAmid panics {} 1 = some (.ok (),
        (last.close {}).2) := by
    have hstart : burdened.startAmid panics {} 1 =
        (iterateAmid panics {} 1 (burdened.launch {})).map (close {}) := rfl
    have hanswer := (close_answer {} last).mpr (by rw [hconfig, Bool.false_and])
    rw [hstart, hlast]
    exact congrArg some (Prod.ext hanswer rfl)
  refine ⟨history_burdened, ?_, ?_⟩
  · obtain ⟨last, hlast, hconfig, hsize, hcount, hfailures⟩ : ∃ last : Engine Nat Nat Unit Unit,
        iterateAmid { level := fun _ _ => true } {} 1 (burdened.launch {}) = some last ∧
          last.config.abortOnError = false ∧ last.scheduler.size = 1 ∧ last.updateCount = 0 ∧
          last.failures = [] := by
      rw [launch_burdened]
      exact ⟨_, rfl, rfl, rfl, rfl, rfl⟩
    have hanswer := (close_answer {} last).mpr (by rw [hconfig, Bool.false_and])
    refine ⟨_, hclosed hlast hconfig, (close_cases {} last).1, ?_,
      (close_updateCount {} last).trans hcount, ?_⟩
    · rw [close_scheduler _ _ hanswer, hsize]
    · rw [close_failures, hfailures]
      exact List.mergeSort_nil
  · obtain ⟨last, hlast, hconfig, hcount, hmetrics⟩ : ∃ last : Engine Nat Nat Unit Unit,
        iterateAmid { name := fun _ _ => true } {} 1 (burdened.launch {}) = some last ∧
          last.config.abortOnError = false ∧ last.updateCount = 1 ∧ last.metrics = {} := by
      rw [launch_burdened]
      exact ⟨_, rfl, rfl, rfl, rfl⟩
    have hclose := close_metrics {} last
    refine ⟨_, hclosed hlast hconfig, (close_updateCount {} last).trans hcount, ?_, ?_⟩
    · rw [hclose, hcount]
    · rw [hclose, hmetrics, Metrics.totalUpdates_eq]
      exact Counter.total_empty

end Engine

end VertexPrograms
