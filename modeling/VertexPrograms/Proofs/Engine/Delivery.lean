import VertexPrograms.Proofs.Engine.Stages

/-!
# Every request is served

While a run is not aborted, a vertex that is pending stays so until a task is handed out for it,
whatever else is asked for meanwhile. So when such a run ends, every vertex that was pending has
been handed out, and every vertex that an update asked for has been handed out after that update.
-/

namespace VertexPrograms

variable {V E M P : Type}

namespace Scheduler

/-- After tasks have been pushed, their vertices are pending, and so are those that were. -/
theorem isSome_programOf?_pushAll (s : Scheduler P) (ts : List (Task P)) (v : VertexIndex) :
    ((s.pushAll ts).programOf? v).isSome = true ↔ (s.programOf? v).isSome = true ∨
    v ∈ ts.map (·.vertex) := by
  induction ts generalizing s with
  | nil => simp [pushAll]
  | cons t ts ih =>
    refine (ih (s.push t).2).trans ?_
    rw [programOf?_push, List.map_cons, List.mem_cons]
    by_cases hv : t.vertex = v
    · simp [hv]
    · simp [hv, Ne.symm hv]

end Scheduler

namespace Engine

variable {host : Host} {e e' : Engine V E M P} {t : Task P} {v : VertexIndex} {steps : Nat}

/-- A run that has been aborted is over. -/
theorem aborted_of_iterate (h : iterate host steps e = some e') (ha : e.scheduler.aborted = true) :
    e'.scheduler.aborted = true := by
  cases steps with
  | zero => cases h
  | succ steps =>
    have hnext : e.scheduler.next 0 = (.finished, e.scheduler) := by rw [Scheduler.next, if_pos ha]
    rw [iterate_of_not_task host steps hnext (by simp)] at h
    exact Option.some.inj h ▸ ha

/-- Unless it aborts the run, a task leaves pending what is, and adds what it asks for. -/
theorem isSome_programOf?_execute (ha : (e.execute host t).scheduler.aborted ≠ true)
    (v : VertexIndex) : ((e.execute host t).scheduler.programOf? v).isSome = true ↔
      (e.scheduler.programOf? v).isSome = true ∨ v ∈ (e.published t).map (·.vertex) := by
  rw [execute_scheduler, Scheduler.haltIf] at ha ⊢
  split at ha
  · exact absurd rfl ha
  · rename_i hgo
    rw [if_neg hgo]
    exact Scheduler.isSome_programOf?_pushAll ..

/-- In a run that ends without being aborted, every vertex that is pending is handed out. -/
theorem exists_stage {n : Nat} (hvalid : e.scheduler.Valid n) (h : iterate host steps e = some e')
    (ha : e'.scheduler.aborted = false) (hv : (e.scheduler.programOf? v).isSome = true) :
    ∃ s ∈ stages host steps e, s.task.vertex = v := by
  have hgo {steps : Nat} {e : Engine V E M P} (h : iterate host steps e = some e') :
      e.scheduler.aborted ≠ true :=
    fun haborted => Bool.false_ne_true (ha.symm.trans (aborted_of_iterate h haborted))
  induction steps generalizing e with
  | zero => cases h
  | succ steps ih =>
    rcases hvalid.next_cases (Bool.eq_false_iff.mpr (hgo h)) 0 with
      ⟨hnil, -⟩ | ⟨u, q, agenda, -, -, hvalid', -, hnext⟩
    · have hnone : e.scheduler.programOf? v = none :=
        Scheduler.programOf?_eq_none (by rw [Scheduler.tasks_eq, hnil]; rfl) v
      rw [hnone] at hv
      cases hv
    · rw [stages_of_task host steps hnext]
      rw [iterate_of_task host steps hnext] at h
      by_cases huv : u = v
      · exact ⟨_, List.mem_cons_self, huv⟩
      · have hleft : (e.handOut (Scheduler.taskOf (u, q)) agenda).scheduler.programOf? v =
            e.scheduler.programOf? v :=
          (Scheduler.programOf?_erase rfl v).trans (if_neg huv)
        obtain ⟨s, hs, hsv⟩ := ih (valid_execute hvalid' host _) h
          ((isSome_programOf?_execute (hgo h) v).mpr (.inl (hleft ▸ hv)))
        exact ⟨s, List.mem_cons_of_mem _ hs, hsv⟩

/-- Wherever a run comes to, the scheduler is valid. -/
theorem Comes.valid {ss : List (Stage V E M P)} {n : Nat} (h : Comes host e ss e')
    (hvalid : e.scheduler.Valid n) : e'.scheduler.Valid n :=
  h.keeps (Q := fun e => e.scheduler.Valid n) hvalid fun {e t scheduler} hvalid hnext => by
    have hscheduler := hvalid.next 0
    rw [hnext] at hscheduler
    exact valid_execute (e := { e with scheduler }) hscheduler host t

/-- A run that ends goes on from each of its stages to the same end. -/
theorem iterate_after {n : Nat} (hvalid : e.scheduler.Valid n) (h : iterate host steps e = some e')
    {before after : List (Stage V E M P)} {s : Stage V E M P}
    (hstages : stages host steps e = before ++ s :: after) : ∃ steps', Comes host e (before ++ [s])
    (s.after host) ∧ (s.after host).scheduler.Valid n ∧
      stages host steps' (s.after host) = after ∧ iterate host steps' (s.after host) = some e' := by
  obtain ⟨steps', rfl, hcomes, hrest⟩ := comes_through hstages
  exact ⟨steps', hcomes, hcomes.valid hvalid, hrest, (hcomes.stages steps').2.symm.trans h⟩

/-- In a run that ends without being aborted, every vertex that an update asks for is handed out
after it. -/
theorem exists_later_stage {n : Nat} (hvalid : e.scheduler.Valid n)
    (h : iterate host steps e = some e') (ha : e'.scheduler.aborted = false)
    {before after : List (Stage V E M P)} {s : Stage V E M P}
    (hstages : stages host steps e = before ++ s :: after)
    (hv : v ∈ (s.engine.published s.task).map (·.vertex)) : ∃ s' ∈ after, s'.task.vertex = v := by
  obtain ⟨steps', -, hvalid', rfl, h⟩ := iterate_after hvalid h hstages
  have hgo : (s.after host).scheduler.aborted ≠ true := fun haborted =>
    Bool.false_ne_true (ha.symm.trans (aborted_of_iterate h haborted))
  exact exists_stage hvalid' h ha ((isSome_programOf?_execute hgo v).mpr (.inr hv))

end Engine

end VertexPrograms
