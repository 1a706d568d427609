import Mathlib.Data.Finset.Card
import VertexPrograms.Proofs.Scheduler.Table

/-!
# Quiescence

Any number of workers call one scheduler, in any order: each asks for tasks, pushes what it likes
while it has one, completes it, and stops when it is told that the run is over. Every task that is
pending at first or is created later has a number, and the numbers handed out are, with those that
are pending, exactly these. So when a worker is told that the run is over, nothing is pending,
nobody has a task that might push another, every task has been handed out once, and whoever asks
later is told the same.
-/

namespace VertexPrograms

variable {P : Type}

/-- What a worker is doing. -/
inductive Stage where
  | idle
  /-- It has a task that it has not completed. -/
  | busy
  | stopped
  deriving DecidableEq, Repr

/-- A scheduler and the workers that call it. -/
structure Crew (P : Type) where
  scheduler : Scheduler P
  stage : Nat → Stage

/-- A call of a worker and its answer, with the number of the task it is about. -/
inductive Event (P : Type) where
  | took (worker number : Nat) (t : Task P)
  /-- Nothing was pending, and the worker goes on waiting. -/
  | waited (worker : Nat)
  /-- The worker was told that the run is over. -/
  | stopped (worker : Nat)
  | pushed (worker number : Nat) (t : Task P) (new : Bool)
  | completed (worker : Nat)
  | aborted

namespace Crew

/-- The crew with a worker at a stage. -/
def turn (c : Crew P) (w : Nat) (stage : Stage) : Crew P :=
  { c with stage := fun u => if u = w then stage else c.stage u }

/-- A worker makes a call that it may make at its stage, or somebody aborts the run. -/
inductive Step (c : Crew P) : Event P → Crew P → Prop
  | took {w k : Nat} {t : Task P} {s : Scheduler P} (h : c.stage w = .idle)
      (hnext : c.scheduler.next w = (.task t, s)) (hk : c.scheduler.numberOf? t.vertex = some k) :
      Step c (.took w k t) ({ c with scheduler := s }.turn w .busy)
  | waited {w : Nat} {s : Scheduler P} (h : c.stage w = .idle)
      (hnext : c.scheduler.next w = (.blocked, s)) : Step c (.waited w) { c with scheduler := s }
  | stopped {w : Nat} {s : Scheduler P} (h : c.stage w = .idle)
      (hnext : c.scheduler.next w = (.finished, s)) :
      Step c (.stopped w) ({ c with scheduler := s }.turn w .stopped)
  | pushed {w k : Nat} {t : Task P} {new : Bool} {s : Scheduler P} (h : c.stage w = .busy)
      (hpush : c.scheduler.push t = (new, s)) (hk : s.numberOf? t.vertex = some k) :
      Step c (.pushed w k t new) { c with scheduler := s }
  | completed {w : Nat} (h : c.stage w = .busy) :
      Step c (.completed w) ({ c with scheduler := c.scheduler.complete }.turn w .idle)
  | aborted : Step c .aborted { c with scheduler := c.scheduler.abort }

/-- Calls in some order. -/
inductive Run : Crew P → List (Event P) → Crew P → Prop
  | nil (c : Crew P) : Run c [] c
  | cons {c c' c'' : Crew P} {e : Event P} {es : List (Event P)} (hstep : Step c e c')
      (hrun : Run c' es c'') : Run c (e :: es) c''

/-- Two runs of which one follows the other are one run. -/
theorem Run.append {c mid c' : Crew P} {es es' : List (Event P)} (h : Run c es mid)
    (h' : Run mid es' c') : Run c (es ++ es') c' := by
  induction h with
  | nil => exact h'
  | cons hstep _ ih => exact .cons hstep (ih h')

/-- A run splits where its events do. -/
theorem Run.split {c c' : Crew P} {es es' : List (Event P)} (h : Run c (es ++ es') c') :
    ∃ mid, Run c es mid ∧ Run mid es' c' := by
  induction es generalizing c with
  | nil => exact ⟨c, .nil c, h⟩
  | cons e es ih =>
    cases h with
    | cons hstep hrun =>
      obtain ⟨mid, hbefore, hafter⟩ := ih hrun
      exact ⟨mid, .cons hstep hbefore, hafter⟩

end Crew

namespace Event

/-- The numbers of the tasks handed out, in order. -/
def taken (es : List (Event P)) : List Nat :=
  es.filterMap fun
    | .took _ number _ => some number
    | _ => none

/-- The numbers of the tasks created, in order. -/
def created (es : List (Event P)) : List Nat :=
  es.filterMap fun
    | .pushed _ number _ true => some number
    | _ => none

/-- Each task that is pushed, for a vertex that has one already or not, is handed out afterwards. -/
def AllServed (es : List (Event P)) : Prop :=
  ∀ before worker number t new after, es = before ++ .pushed worker number t new :: after →
    ∃ worker' t', .took worker' number t' ∈ after ∧ t'.vertex = t.vertex

theorem taken_append (es es' : List (Event P)) : taken (es ++ es') = taken es ++ taken es' :=
  List.filterMap_append

theorem created_append (es es' : List (Event P)) :
    created (es ++ es') = created es ++ created es' :=
  List.filterMap_append

end Event

namespace Crew

variable {c c' : Crew P} {es : List (Event P)} {initial : List Nat}

/-- As many workers have a task as the scheduler counts. -/
def Counted (c : Crew P) : Prop :=
  ∃ ws : Finset Nat, (∀ w, w ∈ ws ↔ c.stage w = .busy) ∧ ws.card = c.scheduler.active

/-- The state of a run that has not been aborted, after some events: the numbers handed out are,
with those that are pending, the ones there were at first and those created since. -/
structure Accounted (initial : List Nat) (es : List (Event P)) (c : Crew P) : Prop where
  valid : ∃ n, c.scheduler.Valid n
  running : c.scheduler.aborted = false
  counted : c.Counted
  numbers : (Event.taken es ++ c.scheduler.numbers).Perm (initial ++ Event.created es)
  ascending : (initial ++ Event.created es).Pairwise (· < ·)
  below : ∀ k ∈ initial ++ Event.created es, k < c.scheduler.nextSeq

/-! # Counting workers -/

/-- A worker takes a task. -/
theorem Counted.add (h : c.Counted) {w : Nat} (hw : c.stage w ≠ .busy) {s : Scheduler P}
    (hs : s.active = c.scheduler.active + 1) :
    ({ c with scheduler := s }.turn w .busy).Counted := by
  obtain ⟨ws, hmem, hcard⟩ := h
  have hnot : w ∉ ws := fun hw' => hw ((hmem w).mp hw')
  refine ⟨insert w ws, fun u => ?_, ?_⟩
  · rw [Finset.mem_insert, hmem]
    by_cases hu : u = w <;> simp [turn, hu]
  · rw [Finset.card_insert_of_notMem hnot, hcard]
    exact hs.symm

/-- A worker completes its task. -/
theorem Counted.remove (h : c.Counted) {w : Nat} (hw : c.stage w = .busy) {s : Scheduler P}
    (hs : s.active = c.scheduler.active - 1) :
    ({ c with scheduler := s }.turn w .idle).Counted := by
  obtain ⟨ws, hmem, hcard⟩ := h
  refine ⟨ws.erase w, fun u => ?_, ?_⟩
  · rw [Finset.mem_erase, hmem]
    by_cases hu : u = w <;> simp [turn, hu]
  · rw [Finset.card_erase_of_mem ((hmem w).mpr hw), hcard]
    exact hs.symm

/-- Nobody takes or completes a task. -/
theorem Counted.keep (h : c.Counted) (hstage : ∀ u, c'.stage u = .busy ↔ c.stage u = .busy)
    (hactive : c'.scheduler.active = c.scheduler.active) : c'.Counted := by
  obtain ⟨ws, hmem, hcard⟩ := h
  exact ⟨ws, fun u => (hmem u).trans (hstage u).symm, hcard.trans hactive.symm⟩

/-- If the scheduler counts no worker, none has a task. -/
theorem Counted.not_busy (h : c.Counted) (hactive : c.scheduler.active = 0) (w : Nat) :
    c.stage w ≠ .busy := by
  obtain ⟨ws, hmem, hcard⟩ := h
  intro hw
  have hempty : ws = ∅ := Finset.card_eq_zero.mp (hcard.trans hactive)
  have := (hmem w).mpr hw
  simp [hempty] at this

/-! # Accounting for numbers -/

/-- A call about no number keeps the account. -/
private theorem Accounted.keep {e : Event P} (h : Accounted initial es c)
    (htaken : Event.taken [e] = []) (hcreated : Event.created [e] = [])
    (hvalid : ∃ n, c'.scheduler.Valid n) (hrunning : c'.scheduler.aborted = c.scheduler.aborted)
    (hcounted : c'.Counted) (hnumbers : c'.scheduler.numbers = c.scheduler.numbers)
    (hnext : c'.scheduler.nextSeq = c.scheduler.nextSeq) : Accounted initial (es ++ [e]) c' := by
  have htaken : Event.taken (es ++ [e]) = Event.taken es := by
    rw [Event.taken_append, htaken, List.append_nil]
  have hcreated : Event.created (es ++ [e]) = Event.created es := by
    rw [Event.created_append, hcreated, List.append_nil]
  refine ⟨hvalid, hrunning.trans h.running, hcounted, ?_, ?_, ?_⟩
  · rw [htaken, hcreated, hnumbers]
    exact h.numbers
  · rw [hcreated]
    exact h.ascending
  · rw [hcreated, hnext]
    exact h.below

/-- A task that is handed out takes its number from those that are pending. -/
private theorem Accounted.took {w k : Nat} {t : Task P} {s : Scheduler P}
    (h : Accounted initial es c) (hw : c.stage w = .idle)
    (hnext : c.scheduler.next w = (.task t, s)) (hk : c.scheduler.numberOf? t.vertex = some k) :
    Accounted initial (es ++ [.took w k t]) ({ c with scheduler := s }.turn w .busy) := by
  obtain ⟨n, hvalid⟩ := h.valid
  have hvalid' : s.Valid n := by
    have := hvalid.next w
    rwa [hnext] at this
  obtain ⟨-, q, agenda, hq, hs⟩ := Scheduler.next_of_task hnext
  obtain rfl : q.seq = k := by simpa [Scheduler.numberOf?, hq] using hk
  have hperm : c.scheduler.numbers.Perm (q.seq :: s.numbers) := hvalid.numbers_erase hq (by rw [hs])
  have htaken : Event.taken (es ++ [.took w q.seq t]) = Event.taken es ++ [q.seq] :=
    Event.taken_append ..
  have hcreated : Event.created (es ++ [.took w q.seq t]) = Event.created es := by
    rw [Event.created_append]
    exact List.append_nil _
  refine ⟨⟨n, hvalid'⟩, by rw [hs]; exact h.running, ?_, ?_, hcreated ▸ h.ascending, ?_⟩
  · exact h.counted.add (by simp [hw]) (by rw [hs])
  · rw [htaken, hcreated, List.append_assoc]
    exact (hperm.symm.append_left _).trans h.numbers
  · rw [hcreated]
    intro k hk
    rw [hs]
    exact h.below k hk

/-- A task that is created has the next number. -/
private theorem Accounted.pushed_new {w : Nat} {t : Task P} (h : Accounted initial es c)
    (hnone : c.scheduler.pending[t.vertex]? = none) :
    Accounted initial (es ++ [.pushed w c.scheduler.nextSeq t true])
      { c with scheduler := (c.scheduler.push t).2 } := by
  obtain ⟨n, hvalid⟩ := h.valid
  have htaken : Event.taken (es ++ [.pushed w c.scheduler.nextSeq t true]) = Event.taken es := by
    rw [Event.taken_append]
    exact List.append_nil _
  have hcreated : initial ++ Event.created (es ++ [.pushed w c.scheduler.nextSeq t true]) =
      (initial ++ Event.created es) ++ [c.scheduler.nextSeq] := by
    rw [Event.created_append, ← List.append_assoc]
    rfl
  refine ⟨⟨n, hvalid.push t⟩, (Scheduler.aborted_push _ t).trans h.running, ?_, ?_, ?_, ?_⟩
  · exact h.counted.keep (fun _ => Iff.rfl) (Scheduler.active_push _ t)
  · rw [htaken, hcreated, hvalid.numbers_push_of_none hnone, ← List.append_assoc]
    exact h.numbers.append_right _
  · rw [hcreated]
    refine List.pairwise_append.mpr ⟨h.ascending, List.pairwise_singleton .., fun k hk l hl => ?_⟩
    obtain rfl := List.mem_singleton.mp hl
    exact h.below k hk
  · rw [hcreated, Scheduler.push_of_none hnone]
    intro k hk
    rcases List.mem_append.mp hk with hk | hk
    · exact Nat.lt_succ_of_lt (h.below k hk)
    · obtain rfl := List.mem_singleton.mp hk
      exact Nat.lt_succ_self _

/-- Every call but an abort keeps the account. -/
theorem Accounted.step {e : Event P} (h : Accounted initial es c) (hstep : Step c e c')
    (hne : e ≠ .aborted) : Accounted initial (es ++ [e]) c' := by
  obtain ⟨n, hvalid⟩ := h.valid
  cases hstep with
  | took hw hnext hk => exact h.took hw hnext hk
  | @waited w s hw hnext =>
    have hvalid' := hvalid.next w
    rw [hnext] at hvalid'
    obtain ⟨agenda, rfl⟩ := Scheduler.next_of_not_task hnext nofun
    exact h.keep rfl rfl ⟨n, hvalid'⟩ rfl (h.counted.keep (fun _ => Iff.rfl) rfl) rfl rfl
  | @stopped w s hw hnext =>
    have hvalid' := hvalid.next w
    rw [hnext] at hvalid'
    obtain ⟨agenda, rfl⟩ := Scheduler.next_of_not_task hnext nofun
    refine h.keep rfl rfl ⟨n, hvalid'⟩ rfl (h.counted.keep (fun u => ?_) rfl) rfl rfl
    by_cases hu : u = w
    · simp [turn, hu, hw]
    · simp [turn, hu]
  | @pushed w k t new s hw hpush hk =>
    cases hpending : c.scheduler.pending[t.vertex]? with
    | none =>
      have hseq : k = c.scheduler.nextSeq := by
        have hnumber := c.scheduler.numberOf?_push t t.vertex
        rw [hpush, hk, if_pos rfl, Scheduler.numberOf?, hpending] at hnumber
        exact Option.some.inj hnumber
      have hnew := h.pushed_new (w := w) hpending
      rw [hpush] at hnew
      rw [Scheduler.push_of_none hpending] at hpush
      obtain ⟨rfl, -⟩ := Prod.mk.inj hpush
      exact hseq ▸ hnew
    | some q' =>
      obtain ⟨pending, agenda, hpush', -⟩ := Scheduler.push_of_some hpending
      have hnumbers := hvalid.numbers_push_of_some hpending
      have hvalid' := hvalid.push t
      obtain ⟨rfl, rfl⟩ := Prod.mk.inj (hpush.symm.trans hpush')
      rw [hpush'] at hnumbers hvalid'
      exact h.keep rfl rfl ⟨n, hvalid'⟩ rfl (h.counted.keep (fun _ => Iff.rfl) rfl) hnumbers rfl
  | completed hw => exact h.keep rfl rfl ⟨n, hvalid.complete⟩ rfl (h.counted.remove hw rfl) rfl rfl
  | aborted => exact absurd rfl hne

/-- So does every run that is not aborted. -/
theorem Accounted.run {es' : List (Event P)} (h : Accounted initial es c) (hrun : Run c es' c')
    (hne : Event.aborted ∉ es') : Accounted initial (es ++ es') c' := by
  induction hrun generalizing es with
  | nil => rwa [List.append_nil]
  | @cons c c₁ c' e es' hstep _ ih =>
    rw [List.mem_cons, not_or] at hne
    rw [← List.singleton_append, ← List.append_assoc]
    exact ih (h.step hstep (Ne.symm hne.1)) hne.2

/-! # The end of a run -/

/-- Nothing is pending, and nobody has a task. -/
structure Quiet (c : Crew P) : Prop where
  pending : c.scheduler.tasks = []
  active : c.scheduler.active = 0
  stage : ∀ w, c.stage w ≠ .busy

/-- A worker that is told that the run is over finds the crew quiet. -/
theorem Accounted.quiet {w : Nat} (h : Accounted initial es c) (hstep : Step c (.stopped w) c') :
    c.Quiet := by
  obtain ⟨n, hvalid⟩ := h.valid
  cases hstep with
  | stopped _ hnext =>
    obtain ⟨hpending, hactive⟩ := hvalid.next_of_finished h.running hnext
    exact ⟨hpending, hactive, h.counted.not_busy hactive⟩

/-- In a quiet crew every call that can be made is to be told that the run is over. -/
theorem Quiet.step {e : Event P} (h : c.Quiet) (hstep : Step c e c') :
    ((∃ w, e = .stopped w) ∨ e = .aborted) ∧ c'.Quiet := by
  cases hstep with
  | took _ _ hk =>
    rw [Scheduler.numberOf?_eq_none h.pending] at hk
    cases hk
  | waited _ hnext => exact absurd h.active (Scheduler.active_of_blocked hnext)
  | @stopped w s hw hnext =>
    obtain ⟨agenda, rfl⟩ := Scheduler.next_of_not_task hnext nofun
    refine ⟨.inl ⟨w, rfl⟩, h.pending, h.active, fun u => ?_⟩
    by_cases hu : u = w
    · simp [turn, hu]
    · simpa [turn, hu] using h.stage u
  | pushed hw => exact absurd hw (h.stage _)
  | completed hw => exact absurd hw (h.stage _)
  | aborted =>
    refine ⟨.inr rfl, ?_, h.active, h.stage⟩
    rw [Scheduler.tasks_eq, Scheduler.inOrder_empty rfl]
    rfl

/-- A crew that is quiet only stops. -/
theorem Quiet.run (h : c.Quiet) (hrun : Run c es c') : ∀ e ∈ es, (∃ w, e = .stopped w) ∨
    e = .aborted := by
  induction hrun with
  | nil => nofun
  | cons hstep _ ih =>
    obtain ⟨hevent, hquiet⟩ := h.step hstep
    exact List.forall_mem_cons.mpr ⟨hevent, ih hquiet⟩

/-- A task that is pending is handed out or stays pending under its number. -/
theorem Step.served {e : Event P} (hstep : Step c e c') (hne : e ≠ .aborted) {v : VertexIndex}
    {k : Nat} (hk : c.scheduler.numberOf? v = some k) :
    (∃ w t, e = .took w k t ∧ t.vertex = v) ∨ c'.scheduler.numberOf? v = some k := by
  cases hstep with
  | @took w l t s _ hnext hl =>
    obtain ⟨-, _, agenda, -, hs⟩ := Scheduler.next_of_task hnext
    by_cases hv : t.vertex = v
    · obtain rfl : l = k := Option.some.inj (hl.symm.trans (hv ▸ hk))
      exact .inl ⟨w, t, rfl, hv⟩
    · have hnumber : s.numberOf? v = _ := Scheduler.numberOf?_erase (by rw [hs]) v
      exact .inr (hnumber.trans ((if_neg hv).trans hk))
  | waited _ hnext | stopped _ hnext =>
    obtain ⟨agenda, rfl⟩ := Scheduler.next_of_not_task hnext nofun
    exact .inr hk
  | @pushed w l t new s _ hpush _ =>
    have hnumber := c.scheduler.numberOf?_push t v
    rw [hpush, hk, Option.getD_some, ite_self] at hnumber
    exact .inr hnumber
  | completed => exact .inr hk
  | aborted => exact absurd rfl hne

/-- A task that was pending has been handed out or is pending still, unless the run was aborted. -/
theorem Run.served (hrun : Run c es c') (hne : Event.aborted ∉ es) {v : VertexIndex} {k : Nat}
    (hk : c.scheduler.numberOf? v = some k) :
    (∃ w t, Event.took w k t ∈ es ∧ t.vertex = v) ∨ c'.scheduler.numberOf? v = some k := by
  induction hrun with
  | nil => exact .inr hk
  | cons hstep _ ih =>
    rw [List.mem_cons, not_or] at hne
    rcases hstep.served (Ne.symm hne.1) hk with ⟨w, t, rfl, hv⟩ | hk'
    · exact .inl ⟨w, t, List.mem_cons_self, hv⟩
    · rcases ih hne.2 hk' with ⟨w, t, hmem, hv⟩ | hk''
      · exact .inl ⟨w, t, List.mem_cons_of_mem _ hmem, hv⟩
      · exact .inr hk''

/-- By the time the crew is quiet, every task that was pushed has been handed out. -/
theorem Run.allServed (hrun : Run c es c') (hne : Event.aborted ∉ es) (hquiet : c'.Quiet) :
    Event.AllServed es := by
  rintro before w k t new after rfl
  obtain ⟨mid, -, hrest⟩ := hrun.split
  cases hrest with
  | cons hstep hafter =>
    cases hstep with
    | pushed _ _ hk =>
      have hne' : Event.aborted ∉ after := fun hmem => hne (by simp [hmem])
      rcases hafter.served hne' hk with hserved | hpending
      · exact hserved
      · rw [Scheduler.numberOf?_eq_none hquiet.pending] at hpending
        cases hpending

/-! # Aborted runs -/

/-- A run that has been aborted stays so, and no task is handed out in it. -/
theorem Step.of_aborted {e : Event P} (hstep : Step c e c') (h : c.scheduler.aborted = true) :
    c'.scheduler.aborted = true ∧ ∀ w k t, e ≠ .took w k t := by
  cases hstep with
  | took _ hnext =>
    obtain ⟨ha, -⟩ := Scheduler.next_of_task hnext
    rw [h] at ha
    cases ha
  | waited _ hnext | stopped _ hnext =>
    obtain ⟨agenda, rfl⟩ := Scheduler.next_of_not_task hnext nofun
    exact ⟨h, nofun⟩
  | @pushed w k t new s hw hpush hk =>
    have haborted := c.scheduler.aborted_push t
    rw [hpush] at haborted
    exact ⟨haborted.trans h, nofun⟩
  | completed => exact ⟨h, nofun⟩
  | aborted => exact ⟨rfl, nofun⟩

/-- After the run has been aborted nothing is handed out. -/
theorem Run.of_aborted (hrun : Run c es c') (h : c.scheduler.aborted = true) :
    ∀ e ∈ es, ∀ w k t, e ≠ .took w k t := by
  induction hrun with
  | nil => nofun
  | cons hstep _ ih =>
    obtain ⟨haborted, hevent⟩ := hstep.of_aborted h
    exact List.forall_mem_cons.mpr ⟨hevent, ih haborted⟩

/-- A scheduler whose workers have not called yet. -/
def start (s : Scheduler P) : Crew P := ⟨s, fun _ => .idle⟩

/-- At the start all pending tasks are accounted for. -/
theorem Accounted.start {s : Scheduler P} (h : s.Reachable) (policy : Policy) (partitions : Nat) :
    Accounted s.numbers [] (start (s.prepare policy partitions)) := by
  obtain ⟨n, hvalid⟩ := h.valid
  refine ⟨⟨_, hvalid.prepare policy partitions⟩, rfl, ⟨∅, by simp [Crew.start], rfl⟩, ?_, ?_, ?_⟩
  · exact .of_eq (List.append_nil s.numbers).symm
  · rw [Event.created, List.filterMap_nil, List.append_nil]
    exact List.pairwise_map.mpr (Scheduler.ascending_inOrder hvalid.numbered)
  · intro k hk
    rw [Event.created, List.filterMap_nil, List.append_nil] at hk
    obtain ⟨⟨v, q⟩, hmem, rfl⟩ := List.mem_map.mp hk
    exact hvalid.below v q (Scheduler.mem_inOrder.mp hmem)

end Crew

/-- After an abort no task is handed out until a run is prepared. -/
theorem Scheduler.replies_of_aborted {s : Scheduler P} (h : s.aborted = true)
    {ops : List (Operation P)}
    (hops : ∀ policy partitions, Operation.prepare policy partitions ∉ ops) (t : Task P) :
    Reply.handout (.task t) ∉ s.replies ops := by
  induction ops generalizing s with
  | nil => nofun
  | cons op ops ih =>
    have hrest (policy : Policy) (partitions : Nat) : Operation.prepare policy partitions ∉ ops :=
      fun hmem =>
      hops policy partitions (List.mem_cons_of_mem op hmem)
    have hop : (s.perform op).1 ≠ .handout (.task t) ∧ (s.perform op).2.aborted = true := by
      cases op with
      | push u => exact ⟨by simp [perform], (aborted_push s u).trans h⟩
      | next worker => simp [perform, next, h]
      | prepare policy partitions => exact absurd List.mem_cons_self (hops policy partitions)
      | _ => exact ⟨by simp [perform], by first | exact h | rfl⟩
    intro hmem
    rcases List.mem_cons.mp hmem with heq | hmem
    · exact hop.1 heq.symm
    · exact ih hop.2 hrest hmem

/-- Workers share a scheduler that has been prepared for a run. If the run is not aborted before one
of them is told that it is over, then nothing is pending by that time and nobody has a task, and
whoever asks later is told the same; every task pushed has been handed out since, and the numbers
handed out are, each once, those of the tasks that were pending at first or were created. Once a run
is aborted no task is handed out in it, nor by any calls before the next run is prepared. -/
theorem Crew.quiescence {s : Scheduler P} (hs : s.Reachable) (policy : Policy) (partitions : Nat) :
    (∀ (before after : List (Event P)) (w : Nat) (c : Crew P),
      Run (start (s.prepare policy partitions)) (before ++ .stopped w :: after) c →
        Event.aborted ∉ before →
        (∃ mid, Run (start (s.prepare policy partitions)) (before ++ [.stopped w]) mid ∧ mid.Quiet ∧
          Run mid after c) ∧
        (∀ e ∈ after, (∃ u, e = .stopped u) ∨ e = .aborted) ∧
        Event.AllServed before ∧
        (Event.taken before).Perm (s.numbers ++ Event.created before) ∧
        (s.numbers ++ Event.created before).Nodup) ∧
    (∀ (before after : List (Event P)) (c : Crew P),
      Run (start (s.prepare policy partitions)) (before ++ .aborted :: after) c →
        ∀ e ∈ after, ∀ w k t, e ≠ .took w k t) ∧
    ∀ (s' : Scheduler P) (ops : List (Scheduler.Operation P)),
      (∀ policy partitions, .prepare policy partitions ∉ ops) →
        ∀ t, .handout (.task t) ∉ s'.abort.replies ops := by
  have haccount := Accounted.start hs policy partitions
  refine ⟨fun before after w c hrun hne => ?_, fun before after c hrun => ?_,
    fun s' ops hops t => ?_⟩
  · obtain ⟨c₁, hbefore, hrest⟩ := hrun.split
    cases hrest with
    | @cons _ c₂ _ _ _ hstop hafter =>
      have hend : Accounted s.numbers before c₁ := haccount.run hbefore hne
      have hquiet := hend.quiet hstop
      have hquiet' := (hquiet.step hstop).2
      have hmid := hbefore.append (.cons hstop (.nil c₂))
      have hnumbers := hend.numbers
      rw [Scheduler.numbers_eq_nil hquiet.pending, List.append_nil] at hnumbers
      exact ⟨⟨c₂, hmid, hquiet', hafter⟩, hquiet'.run hafter, hbefore.allServed hne hquiet,
        hnumbers, hend.ascending.imp Nat.ne_of_lt⟩
  · obtain ⟨c₁, -, hrest⟩ := hrun.split
    cases hrest with
    | cons hstep hafter =>
      cases hstep with
      | aborted => exact hafter.of_aborted rfl
  · exact Scheduler.replies_of_aborted rfl hops t

/-- A call that can be made begins a run if what it leads to does. -/
private theorem Crew.exists_cons {c c' : Crew P} {e : Event P} {es : List (Event P)}
    (hstep : Step c e c') (h : ∃ c'', Run c' es c'') : ∃ c'', Run c (e :: es) c'' := by
  obtain ⟨c'', hrun⟩ := h
  exact ⟨c'', .cons hstep hrun⟩

/-- The first worker wakes the second, which has had to wait, and they stop one after the other. -/
theorem Crew.quiescence_pair :
    let s : Scheduler Unit := ((Scheduler.new .fifo 1).push ⟨0, .zero, ()⟩).2
    let before : List (Event Unit) :=
      [.took 0 0 ⟨0, .zero, ()⟩, .waited 1, .pushed 0 1 ⟨7, .zero, ()⟩ true, .completed 0,
        .took 1 1 ⟨7, .zero, ()⟩, .completed 1]
    (∃ c, Run (start (s.prepare .fifo 1)) (before ++ .stopped 0 :: [.stopped 1]) c) ∧
      Event.AllServed before ∧ (Event.taken before).Perm (s.numbers ++ Event.created before) := by
  intro s before
  have hs : s.Reachable := ⟨.fifo, 1, [.push ⟨0, .zero, ()⟩], rfl⟩
  have hprepare : s.prepare .fifo 1 = s := by
    have horder : s.inOrder = [(0, ⟨.zero, 0, ()⟩)] := List.mergeSort_singleton _
    rw [Scheduler.prepare, horder]
    rfl
  have hrun : ∃ c, Run (start (s.prepare .fifo 1)) (before ++ .stopped 0 :: [.stopped 1]) c := by
    rw [hprepare]
    refine exists_cons (.took rfl rfl rfl) ?_
    refine exists_cons (.waited rfl rfl) ?_
    refine exists_cons (.pushed rfl rfl rfl) ?_
    refine exists_cons (.completed rfl) ?_
    refine exists_cons (.took rfl rfl rfl) ?_
    refine exists_cons (.completed rfl) ?_
    refine exists_cons (.stopped rfl rfl) ?_
    exact exists_cons (.stopped rfl rfl) ⟨_, .nil _⟩
  obtain ⟨c, hc⟩ := hrun
  obtain ⟨-, -, hserved, htaken, -⟩ :=
    (Crew.quiescence hs .fifo 1).1 before [.stopped 1] 0 c hc (by simp [before])
  exact ⟨⟨c, hc⟩, hserved, htaken⟩

end VertexPrograms
