import VertexPrograms.Proofs.Scheduler.Refinement

/-!
# The table of pending tasks

What pushing does to the table, the numbers and the state of the run, whatever the agenda is like: a
vertex without a task gets one under the next number, and the task of a vertex that has one keeps
its number and its program.
-/

namespace VertexPrograms.Scheduler

variable {P : Type} {s : Scheduler P} {t : Task P} {v : VertexIndex}

/-- A vertex without a task gets one. -/
theorem push_of_none (h : s.pending[t.vertex]? = none) : s.push t =
    (true, { s with
      pending := s.pending.insert t.vertex ⟨t.priority, s.nextSeq, t.program⟩
      agenda := s.agenda.add ⟨t.priority, s.nextSeq, t.vertex⟩
      nextSeq := s.nextSeq + 1 }) := by
  simp only [push, h]

/-- The task of a vertex keeps all but its priority. -/
theorem push_of_some {q : Pending P} (h : s.pending[t.vertex]? = some q) :
    ∃ pending agenda, s.push t = (false, { s with pending, agenda }) ∧
      ∀ u : VertexIndex, pending[u]? =
        if t.vertex = u then some { q with priority := q.priority.max t.priority }
          else s.pending[u]? := by
  by_cases hq : q.priority < t.priority
  · refine ⟨s.pending.insert t.vertex { q with priority := t.priority }, _,
      by simp only [push, h, if_pos hq]; rfl, fun u => ?_⟩
    rw [lookup_insert, Priority.max, if_pos hq]
  · refine ⟨s.pending, s.agenda, by simp only [push, h, if_neg hq], fun u => ?_⟩
    by_cases hu : t.vertex = u
    · rw [if_pos hu, Priority.max, if_neg hq, ← hu, h]
    · rw [if_neg hu]

/-- Pushing leaves the state of the run as it is. -/
theorem active_push (s : Scheduler P) (t : Task P) : (s.push t).2.active = s.active := by
  cases h : s.pending[t.vertex]? with
  | none => rw [push_of_none h]
  | some q =>
    obtain ⟨_, _, hpush, -⟩ := push_of_some h
    rw [hpush]

theorem aborted_push (s : Scheduler P) (t : Task P) : (s.push t).2.aborted = s.aborted := by
  cases h : s.pending[t.vertex]? with
  | none => rw [push_of_none h]
  | some q =>
    obtain ⟨_, _, hpush, -⟩ := push_of_some h
    rw [hpush]

/-- The number of the pending task of a vertex. -/
def numberOf? (s : Scheduler P) (v : VertexIndex) : Option Nat := (s.pending[v]?).map (·.seq)

/-- A vertex that is pushed has a task, and what it had of it before if that is not the priority. -/
private theorem map_push {α : Type} {f : Pending P → α}
    (hf : ∀ (q : Pending P) (priority : Priority), f { q with priority } = f q) (s : Scheduler P)
    (t : Task P) (v : VertexIndex) : ((s.push t).2.pending[v]?).map f =
      if t.vertex = v then
        some (((s.pending[v]?).map f).getD (f ⟨t.priority, s.nextSeq, t.program⟩))
      else (s.pending[v]?).map f := by
  cases h : s.pending[t.vertex]? with
  | none =>
    rw [push_of_none h, lookup_insert]
    by_cases hv : t.vertex = v
    · rw [if_pos hv, if_pos hv, ← hv, h]
      rfl
    · rw [if_neg hv, if_neg hv]
  | some q =>
    obtain ⟨_, _, hpush, hlookup⟩ := push_of_some h
    rw [hpush, hlookup]
    by_cases hv : t.vertex = v
    · rw [if_pos hv, if_pos hv, ← hv, h, Option.map_some, hf]
      rfl
    · rw [if_neg hv, if_neg hv]

/-- The table without the task of a vertex. -/
private theorem map_erase {α : Type} {f : Pending P → α} {s' : Scheduler P}
    (h : s'.pending = s.pending.erase v) (u : VertexIndex) :
    (s'.pending[u]?).map f = if v = u then none else (s.pending[u]?).map f := by
  rw [h, lookup_erase]
  by_cases hu : v = u
  · rw [if_pos hu, if_pos hu]
    rfl
  · rw [if_neg hu, if_neg hu]

/-- A push decides the program of its vertex, unless a task is pending there. -/
theorem programOf?_push (s : Scheduler P) (t : Task P) (v : VertexIndex) :
    (s.push t).2.programOf? v =
    if t.vertex = v then some ((s.programOf? v).getD t.program) else s.programOf? v :=
  map_push (fun _ _ => rfl) s t v

/-- A push gives its vertex a new number, unless a task is pending there. -/
theorem numberOf?_push (s : Scheduler P) (t : Task P) (v : VertexIndex) : (s.push t).2.numberOf? v =
    if t.vertex = v then some ((s.numberOf? v).getD s.nextSeq) else s.numberOf? v :=
  map_push (fun _ _ => rfl) s t v

/-- The programs after a task has been taken out. -/
theorem programOf?_erase {s' : Scheduler P} (h : s'.pending = s.pending.erase v) (u : VertexIndex) :
    s'.programOf? u = if v = u then none else s.programOf? u :=
  map_erase h u

/-- What is pending after a task has been taken out was pending before. -/
theorem programOf?_of_erase {s' : Scheduler P} (h : s'.pending = s.pending.erase v)
    {u : VertexIndex} {p : P} (hp : s'.programOf? u = some p) : s.programOf? u = some p := by
  rw [programOf?_erase h] at hp
  split at hp
  · cases hp
  · exact hp

theorem numberOf?_erase {s' : Scheduler P} (h : s'.pending = s.pending.erase v) (u : VertexIndex) :
    s'.numberOf? u = if v = u then none else s.numberOf? u :=
  map_erase h u

theorem active_pushAll (s : Scheduler P) (ts : List (Task P)) :
    (s.pushAll ts).active = s.active := by
  induction ts generalizing s with
  | nil => rfl
  | cons t ts ih => exact (ih _).trans (active_push s t)

theorem aborted_pushAll (s : Scheduler P) (ts : List (Task P)) :
    (s.pushAll ts).aborted = s.aborted := by
  induction ts generalizing s with
  | nil => rfl
  | cons t ts ih => exact (ih _).trans (aborted_push s t)

/-- After tasks of one program have been pushed, their vertices have tasks, and so have those that
had. -/
theorem programOf?_pushAll {p : P} {ts : List (Task P)} (hp : ∀ t ∈ ts, t.program = p)
    (s : Scheduler P) (v : VertexIndex) : (s.pushAll ts).programOf? v =
      if v ∈ ts.map (·.vertex) then some ((s.programOf? v).getD p) else s.programOf? v := by
  induction ts generalizing s with
  | nil => rfl
  | cons t ts ih =>
    have htail := ih (fun u hu => hp u (List.mem_cons_of_mem t hu)) (s.push t).2
    have hhead : t.program = p := hp t List.mem_cons_self
    refine htail.trans ?_
    rw [programOf?_push, hhead]
    by_cases hv : t.vertex = v
    · simp [hv]
    · simp [hv, Ne.symm hv]

/-- What holds of all pending tasks and of all that are pushed holds of all that are pending then.
-/
theorem forall_programOf?_pushAll {K : VertexIndex → P → Prop} {ts : List (Task P)}
    (hs : ∀ v p, s.programOf? v = some p → K v p) (hts : ∀ t ∈ ts, K t.vertex t.program)
    (v : VertexIndex) (p : P) (h : (s.pushAll ts).programOf? v = some p) : K v p := by
  induction ts generalizing s with
  | nil => exact hs v p h
  | cons t ts ih =>
    refine ih (s := (s.push t).2) (fun u q hq => ?_) (fun t' ht' =>
      hts t' (List.mem_cons_of_mem t ht')) h
    rw [programOf?_push] at hq
    split at hq
    · rename_i hu
      subst hu
      cases hold : s.programOf? t.vertex with
      | none =>
        rw [hold] at hq
        exact Option.some.inj hq ▸ hts t List.mem_cons_self
      | some q' =>
        rw [hold] at hq
        exact Option.some.inj hq ▸ hs t.vertex q' hold
    · exact hs u q hq

theorem Valid.pushAll {n : Nat} (h : s.Valid n) (ts : List (Task P)) : (s.pushAll ts).Valid n := by
  induction ts generalizing s with
  | nil => exact h
  | cons t ts ih => exact ih (h.push t)

/-- What is handed out was pending and no longer is. -/
theorem next_of_task {worker : Nat} {s' : Scheduler P} (h : s.next worker = (.task t, s')) :
    s.aborted = false ∧ ∃ q agenda, s.pending[t.vertex]? = some q ∧
      s' = { s with agenda, pending := s.pending.erase t.vertex, active := s.active + 1 } := by
  rw [next] at h
  split at h
  · cases h
  · rename_i hrunning
    dsimp only at h
    split at h
    · rename_i u q hfound
      obtain ⟨u', -, hq⟩ := Option.bind_eq_some_iff.mp hfound
      obtain ⟨q', hq', heq⟩ := Option.map_eq_some_iff.mp hq
      obtain ⟨rfl, rfl⟩ := Prod.mk.inj heq
      obtain ⟨htask, rfl⟩ := Prod.mk.inj h
      obtain rfl := Handout.task.inj htask
      exact ⟨by simpa using hrunning, q', _, hq', rfl⟩
    · obtain ⟨htask, -⟩ := Prod.mk.inj h
      split at htask <;> cases htask

/-- Where nothing is handed out, no more than the agenda changes. -/
theorem next_of_not_task {worker : Nat} {s' : Scheduler P} {answer : Handout P}
    (h : s.next worker = (answer, s')) (ht : ∀ t, answer ≠ .task t) :
    ∃ agenda, s' = { s with agenda } := by
  rw [next] at h
  split at h
  · obtain ⟨-, rfl⟩ := Prod.mk.inj h
    exact ⟨s.agenda, rfl⟩
  · dsimp only at h
    split at h
    · exact absurd (Prod.mk.inj h).1.symm (ht _)
    · obtain ⟨-, rfl⟩ := Prod.mk.inj h
      exact ⟨_, rfl⟩

/-- A worker has to wait only while some task is handed out. -/
theorem active_of_blocked {worker : Nat} {s' : Scheduler P} (h : s.next worker = (.blocked, s')) :
    s.active ≠ 0 := by
  intro hactive
  rw [next] at h
  split at h
  · cases h
  · dsimp only at h
    split at h
    · cases h
    · cases h

/-- Unless it is aborted, a run is over when nothing is pending and nothing handed out. -/
theorem Valid.next_of_finished {n worker : Nat} (hvalid : s.Valid n) (ha : s.aborted = false)
    {s' : Scheduler P} (h : s.next worker = (.finished, s')) : s.tasks = [] ∧ s.active = 0 := by
  rcases hvalid.next_cases ha worker with ⟨hnil, agenda, -, hnext⟩ |
    ⟨v, q, agenda, -, -, -, -, hnext⟩
  · obtain ⟨hanswer, -⟩ := Prod.mk.inj (hnext.symm.trans h)
    refine ⟨by rw [tasks_eq, hnil]; rfl, ?_⟩
    by_contra hactive
    rw [if_neg hactive] at hanswer
    cases hanswer
  · cases (Prod.mk.inj (hnext.symm.trans h)).1

/-! # Numbers -/

/-- The numbers of the pending tasks, in order of creation. -/
def numbers (s : Scheduler P) : List Nat := s.inOrder.map (·.2.seq)

theorem numbers_eq_nil (h : s.tasks = []) : s.numbers = [] := by
  rw [tasks_eq, List.map_eq_nil_iff] at h
  rw [numbers, h, List.map_nil]

/-- A new task has the next number. -/
theorem Valid.numbers_push_of_none {n : Nat} (hvalid : s.Valid n)
    (h : s.pending[t.vertex]? = none) : (s.push t).2.numbers = s.numbers ++ [s.nextSeq] := by
  have horder :
      (s.push t).2.inOrder = s.inOrder ++ [(t.vertex, ⟨t.priority, s.nextSeq, t.program⟩)] :=
    inOrder_insert_last hvalid.numbered h hvalid.below (by rw [push_of_none h])
  rw [numbers, horder, List.map_append]
  rfl

/-- A task that is pending keeps its number. -/
theorem Valid.numbers_push_of_some {n : Nat} (hvalid : s.Valid n) {q : Pending P}
    (h : s.pending[t.vertex]? = some q) : (s.push t).2.numbers = s.numbers := by
  by_cases hq : q.priority < t.priority
  · let q' : Pending P := { q with priority := t.priority }
    have hpending : (s.push t).2.pending = s.pending.insert t.vertex q' := by
      simp only [Scheduler.push, h, if_pos hq, q']
    have horder : (s.push t).2.inOrder = s.inOrder.map fun x => if x.1 = t.vertex then
      (t.vertex, q') else x :=
      inOrder_insert_same hvalid.numbered h rfl hpending
    rw [numbers, numbers, horder, List.map_map]
    refine List.map_congr_left fun x hx => ?_
    by_cases hxv : x.1 = t.vertex
    · have hx : x.2 = q := Option.some.inj ((mem_inOrder.mp hx).symm.trans (hxv ▸ h))
      simp [hxv, hx, q']
    · simp [hxv]
  · rw [(Valid.push_keep h hq).1]

/-- A table without the task of a vertex lacks its number. -/
theorem Valid.numbers_erase {n : Nat} (hvalid : s.Valid n) {s' : Scheduler P} {q : Pending P}
    (h : s.pending[v]? = some q) (hs : s'.pending = s.pending.erase v) :
    s.numbers.Perm (q.seq :: s'.numbers) := by
  have hsplit {l : List (VertexIndex × Pending P)} (hl : l.Pairwise fun a b => a.1 ≠ b.1)
      (hmem : (v, q) ∈ l) : l.Perm ((v, q) :: l.filter (·.1 != v)) := by
    induction l with
    | nil => cases hmem
    | cons x l ih =>
      obtain ⟨hx, hl⟩ := List.pairwise_cons.mp hl
      rcases List.mem_cons.mp hmem with rfl | hmem
      · have hkeep : l.filter (·.1 != v) = l :=
          List.filter_eq_self.mpr fun y hy => bne_iff_ne.mpr (hx y hy).symm
        simp [hkeep]
      · have hne : x.1 ≠ v := hx _ hmem
        rw [List.filter_cons_of_pos (by simpa using hne)]
        exact ((ih hl hmem).cons x).trans (.swap ..)
  rw [numbers, numbers, inOrder_erase hvalid.numbered hs]
  exact (hsplit apart_inOrder (mem_inOrder.mpr h)).map _

/-- A task that is pending is that of its vertex. -/
theorem programOf?_of_mem (h : t ∈ s.tasks) : s.programOf? t.vertex = some t.program := by
  obtain ⟨⟨v, q⟩, hx, rfl⟩ := List.mem_map.mp (tasks_eq s ▸ h)
  rw [programOf?, taskOf, mem_inOrder.mp hx]
  rfl

/-- A vertex with a program has a pending task. -/
theorem exists_mem_tasks {p : P} (h : s.programOf? v = some p) : ∃ t ∈ s.tasks, t.vertex = v := by
  obtain ⟨q, hq, -⟩ := Option.map_eq_some_iff.mp h
  exact ⟨taskOf (v, q), tasks_eq s ▸ List.mem_map_of_mem (mem_inOrder.mpr hq), rfl⟩

theorem Reachable.pushAll (h : s.Reachable) (ts : List (Task P)) : (s.pushAll ts).Reachable := by
  obtain ⟨policy, partitions, ops, rfl⟩ := h
  refine ⟨policy, partitions, ops ++ ts.map .push, ?_⟩
  rw [after, after, Scheduler.pushAll, List.foldl_append, List.foldl_map]
  rfl

/-- No vertex has a task if there are none. -/
theorem programOf?_eq_none (h : s.tasks = []) (v : VertexIndex) : s.programOf? v = none := by
  cases hv : s.programOf? v with
  | none => rfl
  | some p =>
    obtain ⟨t, ht, -⟩ := exists_mem_tasks hv
    rw [h] at ht
    cases ht

/-- Where no task is pending, no vertex has a number. -/
theorem numberOf?_eq_none (h : s.tasks = []) (v : VertexIndex) : s.numberOf? v = none := by
  have hv := programOf?_eq_none h v
  rw [programOf?, Option.map_eq_none_iff] at hv
  rw [numberOf?, hv, Option.map_none]

/-- Nothing is pending if there are no tasks. -/
theorem size_eq_zero : s.size = 0 ↔ s.tasks = [] := by
  rw [← length_inOrder, tasks_eq, List.map_eq_nil_iff, List.length_eq_zero_iff]

/-! # How many are pending -/

/-- When a run is aborted, nothing is left pending. -/
theorem size_abort (s : Scheduler P) : s.abort.size = 0 := Std.ExtTreeMap.size_empty

/-- How many of the tasks are new when they are pushed in order. -/
def created (s : Scheduler P) : List (Task P) → Nat
  | [] => 0
  | t :: ts => (s.push t).1.toNat + (s.push t).2.created ts

/-- A push adds a pending task if it creates one. -/
theorem size_push (s : Scheduler P) (t : Task P) :
    (s.push t).2.size = s.size + (s.push t).1.toNat := by
  have hcontains := Std.ExtTreeMap.contains_eq_isSome_getElem? (t := s.pending) (a := t.vertex)
  rw [push]
  split
  · rename_i p hp
    rw [hp] at hcontains
    split
    · change (s.pending.insert _ _).size = s.pending.size
      rw [Std.ExtTreeMap.size_insert, hcontains]
      rfl
    · rfl
  · rename_i hnone
    rw [hnone] at hcontains
    change (s.pending.insert _ _).size = s.pending.size + 1
    rw [Std.ExtTreeMap.size_insert, hcontains]
    rfl

/-- There are as many more pending tasks as pushes have created. -/
theorem size_pushAll (s : Scheduler P) (ts : List (Task P)) :
    (s.pushAll ts).size = s.size + s.created ts := by
  induction ts generalizing s with
  | nil => rfl
  | cons t ts ih =>
    change ((s.push t).2.pushAll ts).size = _
    rw [ih, size_push, created, Nat.add_assoc]

/-- A task that is handed out is pending no longer. -/
theorem size_next_of_task {worker : Nat} {t : Task P} {s' : Scheduler P}
    (h : s.next worker = (.task t, s')) : s'.size + 1 = s.size := by
  obtain ⟨-, q, agenda, hq, rfl⟩ := next_of_task h
  have hcontains : s.pending.contains t.vertex = true := by
    rw [Std.ExtTreeMap.contains_eq_isSome_getElem?, hq]
    rfl
  have hpos : s.pending.size ≠ 0 := fun hzero => by
    rw [Std.ExtTreeMap.eq_empty_iff_size_eq_zero.mpr hzero] at hcontains
    simp at hcontains
  change (s.pending.erase t.vertex).size + 1 = s.pending.size
  rw [Std.ExtTreeMap.size_erase, if_pos hcontains]
  omega

/-! # Policies of earlier runs -/

/-- The scheduler under another policy, of which its agenda takes no notice. -/
def under (s : Scheduler P) (policy : Policy) : Scheduler P := { s with policy }

/-- A push does not depend on the policy. -/
theorem push_under (s : Scheduler P) (policy : Policy) (t : Task P) :
    (s.under policy).push t = ((s.push t).1, (s.push t).2.under policy) := by
  cases hp : s.pending[t.vertex]? with
  | none => simp [push, under, hp]
  | some p => by_cases hraise : p.priority < t.priority <;> simp [push, under, hp, hraise]

/-- Nor does a hand-out, which goes by the agenda. -/
theorem next_under (s : Scheduler P) (policy : Policy) (worker : Nat) :
    (s.under policy).next worker = ((s.next worker).1, (s.next worker).2.under policy) := by
  cases ha : s.aborted with
  | true => simp [next, under, ha]
  | false =>
    cases hfound : (s.agenda.take worker (isCurrent s.pending)).1.bind fun v =>
      (s.pending[v]?).map (v, ·) <;> simp [next, under, ha, hfound]

/-- The agenda is in step with the table, if not under the present policy then under an earlier one:
a start that panics can leave its policy without an agenda for it. -/
def Sound (s : Scheduler P) : Prop := ∃ policy n, (s.under policy).Valid n

/-- A valid scheduler is sound. -/
theorem Valid.toSound {n : Nat} (h : s.Valid n) : s.Sound := ⟨s.policy, n, h⟩

namespace Sound

theorem push (h : s.Sound) (t : Task P) : (s.push t).2.Sound := by
  obtain ⟨policy, n, hvalid⟩ := h
  have hpush := hvalid.push t
  rw [push_under] at hpush
  exact ⟨policy, n, hpush⟩

theorem next (h : s.Sound) (worker : Nat) : (s.next worker).2.Sound := by
  obtain ⟨policy, n, hvalid⟩ := h
  have hnext := hvalid.next worker
  rw [next_under] at hnext
  exact ⟨policy, n, hnext⟩

theorem complete (h : s.Sound) : s.complete.Sound :=
  let ⟨policy, n, hvalid⟩ := h
  ⟨policy, n, hvalid.complete⟩

theorem clear (h : s.Sound) : s.clear.Sound :=
  let ⟨policy, n, hvalid⟩ := h
  ⟨policy, n, hvalid.clear⟩

theorem abort (h : s.Sound) : s.abort.Sound :=
  let ⟨policy, n, hvalid⟩ := h
  ⟨policy, n, hvalid.abort⟩

theorem rewind (h : s.Sound) (policy : Policy) : (s.rewind policy).Sound :=
  let ⟨policy', n, hvalid⟩ := h
  ⟨policy', n, hvalid.numbered, hvalid.below, hvalid.agenda⟩

/-- To prepare a run makes an agenda for the policy. -/
theorem prepare (h : s.Sound) (policy : Policy) (partitions : Nat) :
    (s.prepare policy partitions).Valid (max partitions 1) :=
  let ⟨_, _, hvalid⟩ := h
  hvalid.prepare policy partitions

end Sound

end VertexPrograms.Scheduler
