import VertexPrograms.Proofs.Scheduler.Table

/-!
# Schedulers that cannot be told apart

Two schedulers are alike if one roster lists what is pending in both. They may have got there in
different ways and differ in the numbers of the tasks, in stale entries and in the shape of the
agenda; but they answer every call alike and stay alike. All that the preparation of a run leaves of
the past is the list of pending tasks.
-/

namespace VertexPrograms.Scheduler

variable {P : Type} {s s' : Scheduler P}

/-- A roster is in step with both schedulers. -/
def Alike (s s' : Scheduler P) : Prop := ∃ r : Roster P, s.Refines r ∧ s'.Refines r

namespace Alike

/-- Schedulers that are alike have the same tasks pending. -/
theorem tasks (h : s.Alike s') : s.tasks = s'.tasks := by
  obtain ⟨r, hr, hr'⟩ := h
  rw [hr.tasks, hr'.tasks]

/-- Every call is answered alike. -/
theorem perform (h : s.Alike s') (op : Operation P) :
    (s.perform op).1 = (s'.perform op).1 ∧ (s.perform op).2.Alike (s'.perform op).2 := by
  obtain ⟨r, hr, hr'⟩ := h
  obtain ⟨hreply, hnext⟩ := hr.perform op
  obtain ⟨hreply', hnext'⟩ := hr'.perform op
  exact ⟨hreply.trans hreply'.symm, _, hnext, hnext'⟩

theorem push (h : s.Alike s') (t : Task P) : (s.push t).1 = (s'.push t).1 ∧
    (s.push t).2.Alike (s'.push t).2 :=
  (h.perform (.push t)).imp_left Reply.added.inj

theorem next (h : s.Alike s') (worker : Nat) :
    (s.next worker).1 = (s'.next worker).1 ∧ (s.next worker).2.Alike (s'.next worker).2 :=
  (h.perform (.next worker)).imp_left Reply.handout.inj

theorem complete (h : s.Alike s') : s.complete.Alike s'.complete := (h.perform .complete).2

theorem clear (h : s.Alike s') : s.clear.Alike s'.clear := (h.perform .clear).2

theorem abort (h : s.Alike s') : s.abort.Alike s'.abort := (h.perform .abort).2

theorem pushAll (h : s.Alike s') (ts : List (Task P)) : (s.pushAll ts).Alike (s'.pushAll ts) := by
  induction ts generalizing s s' with
  | nil => exact h
  | cons t ts ih => exact ih (h.push t).2

/-- As many tasks are new in both. -/
theorem created (h : s.Alike s') (ts : List (Task P)) : s.created ts = s'.created ts := by
  induction ts generalizing s s' with
  | nil => rfl
  | cons t ts ih =>
    obtain ⟨hnew, hrest⟩ := h.push t
    rw [Scheduler.created, Scheduler.created, hnew, ih hrest]

end Alike

/-- Preparing a run makes schedulers alike if the same tasks are pending in the same order. -/
theorem Sound.alike_prepare (h : s.Sound) (h' : s'.Sound) (htasks : s.tasks = s'.tasks)
    (policy : Policy) (partitions : Nat) :
    (s.prepare policy partitions).Alike (s'.prepare policy partitions) := by
  refine ⟨{ policy, shares := max partitions 1, tasks := s.tasks }, ?_, ?_⟩
  · exact ⟨h.prepare policy partitions, rfl, rfl, rfl, rfl⟩
  · exact ⟨h'.prepare policy partitions, htasks.symm, rfl, rfl, rfl⟩

/-- What is pending after a push depends on nothing but what was pending before. -/
theorem Sound.tasks_push (h : s.Sound) (t : Task P) : (s.push t).2.tasks =
    (Roster.push ⟨s.policy, 0, s.tasks, s.active, s.aborted⟩ t).2.tasks := by
  obtain ⟨policy, n, hvalid⟩ := h
  have hr : (s.under policy).Refines ⟨policy, n, s.tasks, s.active, s.aborted⟩ :=
    ⟨hvalid, rfl, rfl, rfl, rfl⟩
  have htasks := (hr.push t).2.tasks
  rw [push_under] at htasks
  refine htasks.trans ?_
  rw [Roster.push, Roster.push, Roster.taskOf?, Roster.taskOf?]
  dsimp only
  cases s.tasks.find? (·.vertex == t.vertex) <;> rfl

/-- Of sound schedulers with the same tasks, a push leaves the same tasks. -/
theorem Sound.tasks_push_congr (h : s.Sound) (h' : s'.Sound) (htasks : s.tasks = s'.tasks)
    (t : Task P) : (s.push t).2.tasks = (s'.push t).2.tasks := by
  rw [h.tasks_push, h'.tasks_push, Roster.push, Roster.push, Roster.taskOf?, Roster.taskOf?, htasks]
  dsimp only
  cases s'.tasks.find? (·.vertex == t.vertex) <;> rfl

end VertexPrograms.Scheduler
