import VertexPrograms.Proofs.Engine.Balance

/-!
# Stages

A stage of a run is an engine that has handed out a task and is about to run it. While the rounds of
a run tell what came of its tasks, the stages also tell what the data were like when each update
began, and what it left behind. A run can be cut between any two of its stages.
-/

namespace VertexPrograms

variable {V E M P : Type}

namespace Engine

/-- An engine that has handed out a task. -/
structure Stage (V E M P : Type) where
  engine : Engine V E M P
  task : Task P

namespace Stage

variable (host : Host) (s : Stage V E M P)

/-- What the engine is after the task. -/
def after : Engine V E M P := s.engine.execute host s.task

/-- What comes of the task. -/
def round : Round P := s.engine.round host s.task

theorem after_updateCount : (s.after host).updateCount = (s.round host).number :=
  Engine.execute_updateCount ..

end Stage

variable {host : Host} {e e' : Engine V E M P} {t : Task P} {scheduler : Scheduler P}

/-- The stages of a run, up to the given number of steps. -/
def stages (host : Host) : Nat → Engine V E M P → List (Stage V E M P)
  | 0, _ => []
  | steps + 1, e =>
    match e.scheduler.next 0 with
    | (.task t, scheduler) =>
      let s : Stage V E M P := ⟨{ e with scheduler }, t⟩
      s :: stages host steps (s.after host)
    | _ => []

/-- The run comes through the given stages to an engine. -/
inductive Comes (host : Host) (e : Engine V E M P) : List (Stage V E M P) → Engine V E M P → Prop
  | here : Comes host e [] e
  | on {ss : List (Stage V E M P)} {e' : Engine V E M P} {t : Task P} {scheduler : Scheduler P}
      (h : Comes host e ss e') (hnext : e'.scheduler.next 0 = (.task t, scheduler)) :
      Comes host e (ss ++ [⟨{ e' with scheduler }, t⟩]) (Engine.execute host { e' with
        scheduler } t)

section Steps

variable (host : Host) (steps : Nat)

/-- The first stage of a run is that of the task which is handed out. -/
theorem stages_of_task (h : e.scheduler.next 0 = (.task t, scheduler)) : stages host (steps + 1) e =
    ⟨{ e with scheduler }, t⟩ :: stages host steps
      (Engine.execute host { e with scheduler } t) := by
  rw [stages, h]
  rfl

/-- Where no task is handed out, there are no stages. -/
theorem stages_of_not_task {answer : Handout P} (h : e.scheduler.next 0 = (answer, scheduler))
    (ht : ∀ t, answer ≠ .task t) : stages host steps e = [] := by
  cases steps with
  | zero => rfl
  | succ steps =>
    rw [stages, h]
    cases answer with
    | task t => exact absurd rfl (ht t)
    | finished | blocked => rfl

/-- A run goes on from what its first task leaves. -/
theorem iterate_of_task (h : e.scheduler.next 0 = (.task t, scheduler)) :
    iterate host (steps + 1) e =
      iterate host steps (Engine.execute host { e with scheduler } t) := by
  rw [iterate, step, h]

theorem iterate_of_not_task {answer : Handout P} (h : e.scheduler.next 0 = (answer, scheduler))
    (ht : ∀ t, answer ≠ .task t) : iterate host (steps + 1) e = some { e with scheduler } := by
  rw [iterate, step, h]
  cases answer with
  | task t => exact absurd rfl (ht t)
  | finished | blocked => rfl

/-- The rounds of a run are those of its stages. -/
theorem rounds_eq (e : Engine V E M P) :
    rounds host steps e = (stages host steps e).map (Stage.round host) := by
  induction steps generalizing e with
  | zero => rfl
  | succ steps ih =>
    rw [rounds, stages]
    rcases e.scheduler.next 0 with ⟨answer, scheduler⟩
    cases answer with
    | task t => exact congrArg _ (ih _)
    | finished | blocked => rfl

end Steps

/-! # Cutting a run -/

/-- A run that has come to an engine goes on from there. -/
theorem Comes.stages {ss : List (Stage V E M P)} (h : Comes host e ss e') (steps : Nat) :
    Engine.stages host (ss.length + steps) e = ss ++ Engine.stages host steps e' ∧
      iterate host (ss.length + steps) e = iterate host steps e' := by
  induction h generalizing steps with
  | here => simp
  | @on ss e' t scheduler _ hnext ih =>
    obtain ⟨hstages, hiterate⟩ := ih (steps + 1)
    have hlength :
        ss.length + (steps + 1) =
          (ss ++ [(⟨{ e' with scheduler }, t⟩ : Stage V E M P)]).length + steps := by
      rw [List.length_append, List.length_singleton]
      omega
    rw [← hlength, hstages, hiterate, stages_of_task host steps hnext,
      iterate_of_task host steps hnext, List.append_assoc, List.singleton_append]
    exact ⟨rfl, rfl⟩

/-- What the first stage of a run is, and that the others are those of the run that goes on after
it. -/
theorem of_stages_eq_cons {steps : Nat} {s : Stage V E M P} {rest : List (Stage V E M P)}
    (h : stages host steps e = s :: rest) :
    ∃ steps' t scheduler, steps = steps' + 1 ∧ e.scheduler.next 0 = (.task t, scheduler) ∧
      s = ⟨{ e with scheduler }, t⟩ ∧ stages host steps' (s.after host) = rest := by
  cases steps with
  | zero => cases h
  | succ steps =>
    rcases hnext : e.scheduler.next 0 with ⟨answer, scheduler⟩
    cases answer with
    | task t =>
      rw [stages_of_task host steps hnext] at h
      obtain ⟨rfl, hrest⟩ := List.cons.inj h
      exact ⟨steps, t, scheduler, rfl, rfl, rfl, hrest⟩
    | finished | blocked =>
      rw [stages_of_not_task host (steps + 1) hnext (by simp)] at h
      cases h

/-- A run can be cut between any two of its stages. -/
theorem exists_comes {steps : Nat} {first rest : List (Stage V E M P)}
    (h : stages host steps e = first ++ rest) : ∃ steps' e', steps = first.length + steps' ∧
    Comes host e first e' ∧ stages host steps' e' = rest := by
  induction first using List.reverseRecOn generalizing rest with
  | nil => exact ⟨steps, e, (Nat.zero_add steps).symm, .here, h⟩
  | append_singleton first s ih =>
    rw [List.append_assoc] at h
    obtain ⟨steps₁, e₁, rfl, hcomes, hrest⟩ := ih h
    obtain ⟨steps₂, t, scheduler, rfl, hnext, rfl, hrest⟩ := of_stages_eq_cons hrest
    refine ⟨steps₂, _, ?_, hcomes.on hnext, hrest⟩
    rw [List.length_append, List.length_singleton]
    omega

/-- A run that has come through a last stage has run its task. -/
theorem Comes.of_concat {first : List (Stage V E M P)} {s : Stage V E M P}
    (h : Comes host e (first ++ [s]) e') : e' = s.after host ∧ ∃ before t scheduler,
    Comes host e first before ∧
      before.scheduler.next 0 = (.task t, scheduler) ∧ s = ⟨{ before with scheduler }, t⟩ := by
  generalize hss : first ++ [s] = ss at h
  cases h with
  | here => simp at hss
  | on hcomes hnext =>
    obtain ⟨rfl, hs⟩ := List.append_inj' hss rfl
    obtain rfl := List.singleton_inj.mp hs
    exact ⟨rfl, _, _, _, hcomes, hnext, rfl⟩

/-- A run comes through each of its stages, and goes on as the stage leaves the engine. -/
theorem comes_through {steps : Nat} {before after : List (Stage V E M P)} {s : Stage V E M P}
    (h : stages host steps e = before ++ s :: after) :
    ∃ steps', steps = (before ++ [s]).length + steps' ∧ Comes host e (before ++ [s])
      (s.after host) ∧ stages host steps' (s.after host) = after := by
  rw [List.append_cons] at h
  obtain ⟨steps', e', hsteps, hcomes, hrest⟩ := exists_comes h
  obtain ⟨rfl, -⟩ := hcomes.of_concat
  exact ⟨steps', hsteps, hcomes, hrest⟩

/-- A run that ends has come through all its stages to where nothing is handed out any more. -/
theorem comes_of_iterate {steps : Nat} (h : iterate host steps e = some e') :
    ∃ last answer scheduler, Comes host e (stages host steps e) last ∧
      last.scheduler.next 0 = (answer, scheduler) ∧ (∀ t, answer ≠ .task t) ∧
      e' = { last with scheduler } ∧ (stages host steps e).length < steps := by
  obtain ⟨steps', last, hsteps, hcomes, hrest⟩ :=
    exists_comes (List.append_nil (stages host steps e)).symm
  obtain ⟨-, hiterate⟩ := hcomes.stages steps'
  rw [← hsteps, h] at hiterate
  cases steps' with
  | zero => cases hiterate
  | succ steps' =>
    rcases hnext : last.scheduler.next 0 with ⟨answer, scheduler⟩
    cases answer with
    | task t =>
      rw [stages_of_task host steps' hnext] at hrest
      cases hrest
    | finished | blocked =>
      rw [iterate_of_not_task host steps' hnext (by simp)] at hiterate
      exact ⟨last, _, scheduler, hcomes, hnext, by simp, Option.some.inj hiterate, by omega⟩

/-- What every task keeps that is handed out, a run keeps, and it holds whenever a task is about to
be run. -/
theorem Comes.keeps {ss : List (Stage V E M P)} (h : Comes host e ss e')
    {Q : Engine V E M P → Prop} (he : Q e)
    (hstep : ∀ {e : Engine V E M P} {t : Task P} {scheduler : Scheduler P}, Q e →
      e.scheduler.next 0 = (.task t, scheduler) → Q (Engine.execute host { e with scheduler } t)) :
    Q e' := by
  induction h with
  | here => exact he
  | on _ hnext ih => exact hstep ih hnext

/-- A run does not change the configuration. -/
theorem Comes.config {ss : List (Stage V E M P)} (h : Comes host e ss e') : e'.config = e.config :=
  h.keeps (Q := fun e' => e'.config = e.config) rfl fun hq _ => (execute_config ..).trans hq

/-- A run that is not refused ends as its last state is closed. -/
theorem start_eq {steps : Nat} (hready : e.phase.isReady = true) (hcount : e.store.vertexCount ≠ 0)
    (hroom : e.hasRoom host = true) :
    e.start host steps = (iterate host steps (e.launch host)).map (close host) := by
  simp [start, hready, hcount, hroom]

/-- A run that is over has an account, and its books balance. -/
theorem exists_account {answer : Except Error Unit} {steps : Nat} (hsound : e.scheduler.Sound)
    (hworkers : e.config.resolvedWorkers host.processors = 1) (hready : e.phase.isReady = true)
    (hcount : e.store.vertexCount ≠ 0) (hstart : e.start host steps = some (answer, e')) :
    ∃ last, iterate host steps (e.launch host) = some last ∧ last.close host = (answer, e') ∧
      Account (e.launch host) (rounds host steps (e.launch host)) last ∧
      Balanced e answer e' (rounds host steps (e.launch host)) := by
  obtain ⟨last, hlast, hclose⟩ := start_eq_some hready hcount (hasRoom_of_one hworkers) hstart
  obtain ⟨haccount, hidle⟩ := (Account.launch host hsound).iterate hlast
  have hbalanced := haccount.balanced hidle
  rw [hclose] at hbalanced
  exact ⟨last, hlast, hclose, haccount, hbalanced⟩

/-- The account of a run is kept through its stages. -/
theorem Account.comes {start : Engine V E M P} {qs : List (Round P)} {ss : List (Stage V E M P)}
    (h : Account start qs e) (hcomes : Comes host e ss e') :
    Account start (qs ++ ss.map (Stage.round host)) e' := by
  induction hcomes with
  | here => simpa using h
  | on _ hnext ih =>
    rw [List.map_append, ← List.append_assoc]
    exact ih.round host hnext

end Engine

end VertexPrograms
