import Mathlib.Data.List.Nodup
import Mathlib.Data.List.Perm.Subperm
import VertexPrograms.Proofs.Scheduler.Table

/-!
# How large the heap grows

Under the priority policy each raise of a priority adds an entry to the heap and leaves a stale one
behind. A raise drops the stale entries when more than half of all would be stale. Handing out tasks
then takes entries of pending tasks off the heap and may leave every stale one there, so twice the
number of pending tasks is no bound between raises. The largest number of tasks that were pending at
once is one: no more entries than that are ever stale, whatever the number of raises.
-/

namespace VertexPrograms

/-! # Entries of a heap -/

/-- A heap in which every entry is that of a pending task has no more entries than there are tasks.
-/
theorem Heap.Holds.length_le {next : Nat} {es : List Entry} {heap : Heap Entry}
    (h : heap.Holds next es) (hall : ∀ x ∈ heap.toList, x ∈ es) :
    heap.toList.length ≤ es.length := by
  have hnodup : heap.toList.Nodup :=
    List.nodup_iff_count_eq_one.mpr fun x hx => h.once x (hall x hx)
  exact (List.subperm_of_subset hnodup hall).length_le

namespace Agenda

/-- If the agenda is a heap, it is in order and has at most `k` entries. -/
def AtMost (k : Nat) : Agenda → Prop
  | ranked heap => heap.Valid Entry.before ∧ heap.toList.length ≤ k
  | queue _ | shares _ => True

variable {agenda : Agenda} {k : Nat}

theorem AtMost.mono (h : agenda.AtMost k) {k' : Nat} (hle : k ≤ k') : agenda.AtMost k' := by
  cases agenda with
  | ranked heap => exact ⟨h.1, Nat.le_trans h.2 hle⟩
  | queue | shares => trivial

theorem atMost_empty (policy : Policy) (partitions : Nat) :
    (Agenda.empty policy partitions).AtMost 0 := by
  cases policy with
  | priority => exact ⟨trivial, Nat.le_refl 0⟩
  | fifo | roundRobin => trivial

theorem atMost_cleared (agenda : Agenda) : agenda.cleared.AtMost 0 := by
  cases agenda with
  | ranked heap => exact ⟨trivial, Nat.le_refl 0⟩
  | queue | shares => trivial

/-- A new task comes with one entry. -/
theorem AtMost.add (h : agenda.AtMost k) (e : Entry) : (agenda.add e).AtMost (k + 1) := by
  cases agenda with
  | ranked heap =>
    refine ⟨Heap.valid_insert Entry.before_comparison e h.1, ?_⟩
    rw [(Heap.toList_insert Entry.before e heap).length_eq, List.length_cons]
    exact Nat.add_le_add_right h.2 1
  | queue | shares => trivial

/-- A vertex that is taken takes its entry along, besides those that are passed over. -/
theorem AtMost.take (h : agenda.AtMost k) (worker : Nat) (current : Entry → Bool) :
    (agenda.take worker current).2.AtMost (k - (agenda.take worker current).1.toList.length) := by
  cases agenda with
  | ranked heap =>
    obtain ⟨passed, found, rest, heq, hperm, hvalid, -, -⟩ :=
      Heap.popUntil_spec Entry.before_comparison current h.1
        (Nat.le_of_eq (Heap.size_of_valid h.1).symm)
    have hlength : passed.length + (found.toList.length + rest.toList.length) ≤ k := by
      rw [← List.length_append, ← List.length_append, ← hperm.length_eq]
      exact h.2
    have hfound : (found.map Entry.vertex).toList.length = found.toList.length := by
      cases found <;> rfl
    simp only [Agenda.take, heq, hfound]
    have hrest : rest.toList.length ≤ k - found.toList.length := by omega
    exact ⟨hvalid, hrest⟩
  | queue all =>
    rw [Agenda.take]
    split <;> trivial
  | shares parts =>
    rw [Agenda.take]
    split <;> trivial

/-- After a raise at most half of the entries are stale: those of the pending tasks, `es`, are kept,
and the others are dropped if they are more. -/
theorem Holds.atMost_raise {policy : Policy} {n next : Nat} {es : List Entry} {e : Entry}
    {current : Entry → Bool} (h : (agenda.raise e es.length current).Holds policy n next es)
    (hcur : ∀ x, current x = true → x ∈ es) (hsome : es ≠ []) :
    (agenda.raise e es.length current).AtMost (2 * es.length) := by
  have hpos : 0 < es.length := List.length_pos_iff.mpr hsome
  cases agenda with
  | ranked heap =>
    obtain ⟨-, hholds⟩ := h
    refine ⟨hholds.valid, ?_⟩
    -- Either the stale entries have been dropped, or the heap was too small for that.
    split at hholds
    · rename_i hlarge
      have hall (x : Entry)
          (hx : x ∈ ((heap.insert Entry.before e).filter Entry.before current).toList) :
          x ∈ es := by
        have hperm :=
          Heap.toList_filter Entry.before_comparison current (heap.insert Entry.before e)
        exact hcur x (List.mem_filter.mp (hperm.mem_iff.mp hx)).2
      have := hholds.length_le hall
      rw [if_pos hlarge]
      omega
    · rename_i hsmall
      rw [if_neg hsmall, ← Heap.size_of_valid hholds.valid]
      omega
  | queue | shares => trivial

end Agenda

namespace Scheduler

variable {P : Type} {s : Scheduler P} {n : Nat}

/-- There is one entry for each pending task. -/
theorem length_entries (s : Scheduler P) : s.entries.length = s.size := by
  rw [entries, List.length_map, length_inOrder]

/-- A scheduler that hands out by priority has a heap for an agenda. -/
theorem Valid.exists_heap (h : s.Valid n) (hpolicy : s.policy = .priority) :
    ∃ heap, s.agenda = .ranked heap ∧ heap.Holds s.nextSeq s.entries := by
  have hholds := h.agenda
  cases hagenda : s.agenda with
  | ranked heap =>
    rw [hagenda] at hholds
    exact ⟨heap, rfl, hholds.2⟩
  | queue | shares =>
    rw [hagenda] at hholds
    have hother := hpolicy.symm.trans hholds.1
    cases hother

/-! # Calls -/

/-- A more urgent task for a vertex raises the priority of the pending one. -/
theorem push_of_lt {t : Task P} {p : Pending P} (hv : s.pending[t.vertex]? = some p)
    (hp : p.priority < t.priority) :
    let pending := s.pending.insert t.vertex { p with priority := t.priority }
    s.push t = (false, { s with
      pending
      agenda := s.agenda.raise ⟨t.priority, p.seq, t.vertex⟩ pending.size
        (isCurrent pending) }) := by
  simp only [push, hv, if_pos hp]

/-- A raise leaves at most two entries for each pending task. -/
theorem Valid.atMost_raise (h : s.Valid n) {t : Task P} {p : Pending P}
    (hv : s.pending[t.vertex]? = some p) (hp : p.priority < t.priority) :
    (s.push t).2.agenda.AtMost (2 * (s.push t).2.size) := by
  let pending := s.pending.insert t.vertex { p with priority := t.priority }
  let e : Entry := ⟨t.priority, p.seq, t.vertex⟩
  let s' : Scheduler P :=
    { s with pending, agenda := s.agenda.raise e pending.size (isCurrent pending) }
  have hpush : s.push t = (false, s') := push_of_lt hv hp
  have hvalid : s'.Valid n := by
    have := h.push t
    rwa [hpush] at this
  have hagenda : s'.agenda = s.agenda.raise e s'.entries.length (isCurrent s'.pending) := by
    rw [length_entries]
    rfl
  have hmem : e ∈ s'.entries := by
    refine mem_entries.mpr ⟨{ p with priority := t.priority }, ?_, rfl, rfl⟩
    rw [lookup_insert, if_pos rfl]
  rw [hpush, ← length_entries, hagenda]
  exact Agenda.Holds.atMost_raise (hagenda ▸ hvalid.agenda) (fun _ => isCurrent_iff.mp)
    (List.ne_nil_of_mem hmem)

/-- A push keeps the number of stale entries within any bound that the number of pending tasks keeps
within. -/
theorem Valid.atMost_push (h : s.Valid n) {k : Nat} (hk : s.agenda.AtMost (s.size + k))
    (t : Task P) : (s.push t).2.agenda.AtMost ((s.push t).2.size + max k (s.push t).2.size) := by
  cases hv : s.pending[t.vertex]? with
  | none =>
    have hagenda : (s.push t).2.agenda = s.agenda.add ⟨t.priority, s.nextSeq, t.vertex⟩ := by
      rw [push_of_none hv]
    have hsize : (s.push t).2.size = s.size + 1 := by
      rw [size_push, push_of_none hv]
      rfl
    rw [hagenda]
    exact (hk.add _).mono (by omega)
  | some p =>
    by_cases hp : p.priority < t.priority
    · exact (h.atMost_raise hv hp).mono (by omega)
    · rw [(push_keep hv hp).1]
      exact hk.mono (Nat.add_le_add_left (Nat.le_max_left ..) _)

/-- Handing out a task leaves no more stale entries than there were. -/
theorem Valid.atMost_next (h : s.Valid n) {k : Nat} (hk : s.agenda.AtMost (s.size + k))
    (worker : Nat) : (s.next worker).2.agenda.AtMost ((s.next worker).2.size + k) := by
  cases ha : s.aborted with
  | true => simpa [Scheduler.next, ha] using hk
  | false =>
    have htaken := hk.take worker (isCurrent s.pending)
    rcases h.agenda.take_cases h.listing (fun _ => isCurrent_iff) worker with
      ⟨-, rest, htake, -⟩ | ⟨e, he, -, rest, htake, -⟩
    · have hnext : (s.next worker).2 = { s with agenda := rest } := by
        simp [Scheduler.next, ha, htake]
      rw [hnext]
      rw [htake] at htaken
      exact htaken
    · obtain ⟨p, hp, -⟩ := mem_entries.mp he
      have hnext : s.next worker = (.task ⟨e.vertex, p.priority, p.program⟩,
          { s with
            agenda := rest
            pending := s.pending.erase e.vertex
            active := s.active + 1 }) := by
        simp [Scheduler.next, ha, htake, hp]
      have hsize := size_next_of_task hnext
      rw [hnext]
      rw [htake] at htaken
      refine htaken.mono ?_
      simp only [Option.toList_some, List.length_singleton]
      omega

/-- Preparing a run leaves no stale entries. -/
theorem atMost_prepare (s : Scheduler P) (policy : Policy) (partitions : Nat) :
    (s.prepare policy partitions).agenda.AtMost s.size := by
  have hadd (xs : List (VertexIndex × Pending P)) {agenda : Agenda} {k : Nat}
      (h : agenda.AtMost k) : (xs.foldl (fun agenda x => agenda.add (entryOf x)) agenda).AtMost
        (k + xs.length) := by
    induction xs generalizing agenda k with
    | nil => exact h
    | cons x xs ih => exact (ih (h.add _)).mono (by rw [List.length_cons]; omega)
  rw [← length_inOrder, ← Nat.zero_add s.inOrder.length]
  exact hadd s.inOrder (Agenda.atMost_empty policy partitions)

end Scheduler

/-! # Any number of calls -/

/-- A scheduler with the largest number of tasks that have been pending at once since it was last
prepared, or since it was new. -/
structure Gauge (P : Type) where
  scheduler : Scheduler P
  peak : Nat

namespace Gauge

variable {P : Type} {g : Gauge P}

/-- A new scheduler, with nothing pending. -/
def new (policy : Policy) (partitions : Nat) : Gauge P := ⟨.new policy partitions, 0⟩

/-- Makes a call. -/
def perform (g : Gauge P) (op : Scheduler.Operation P) : Gauge P :=
  let scheduler := (g.scheduler.perform op).2
  match op with
  | .prepare _ _ => ⟨scheduler, scheduler.size⟩
  | _ => ⟨scheduler, max g.peak scheduler.size⟩

/-- Makes calls in order. -/
def after (g : Gauge P) (ops : List (Scheduler.Operation P)) : Gauge P := ops.foldl perform g

/-- The gauge does not disturb the scheduler. -/
theorem scheduler_perform (g : Gauge P) (op : Scheduler.Operation P) :
    (g.perform op).scheduler = (g.scheduler.perform op).2 := by
  cases op <;> rfl

/-- Taking note of the peak does not change what the calls do. -/
theorem scheduler_after (g : Gauge P) (ops : List (Scheduler.Operation P)) :
    (g.after ops).scheduler = g.scheduler.after ops := by
  induction ops generalizing g with
  | nil => rfl
  | cons op ops ih =>
    change ((g.perform op).after ops).scheduler = (g.scheduler.perform op).2.after ops
    rw [ih, scheduler_perform]

/-- Besides the entries of pending tasks the heap has no more entries than tasks were pending at the
peak. -/
structure Bounded (g : Gauge P) : Prop where
  valid : ∃ n, g.scheduler.Valid n
  atMost : g.scheduler.agenda.AtMost (g.scheduler.size + g.peak)

namespace Bounded

theorem new (policy : Policy) (partitions : Nat) :
    (Gauge.new policy partitions : Gauge P).Bounded where
  valid := ⟨_, .new policy partitions⟩
  atMost := (Agenda.atMost_empty policy partitions).mono (Nat.zero_le _)

/-- What one call preserves. -/
theorem perform (h : g.Bounded) (op : Scheduler.Operation P) : (g.perform op).Bounded := by
  obtain ⟨⟨n, hvalid⟩, hmost⟩ := h
  have hbounded {s : Scheduler P} {k : Nat} (hs : s.Valid n) (hmost : s.agenda.AtMost (s.size + k))
      (hk : k ≤ max g.peak s.size) : Bounded ⟨s, max g.peak s.size⟩ :=
    ⟨⟨n, hs⟩, hmost.mono (Nat.add_le_add_left hk _)⟩
  have hcleared {s : Scheduler P} (hs : s.Valid n)
      (hagenda : s.agenda = g.scheduler.agenda.cleared) : Bounded ⟨s, max g.peak s.size⟩ :=
    hbounded hs (hagenda ▸ (Agenda.atMost_cleared _).mono (Nat.zero_le _)) (Nat.le_max_left ..)
  -- Only a preparation lowers the peak, and it leaves no entry besides those of the pending tasks.
  cases op with
  | push t => exact hbounded (hvalid.push t) (hvalid.atMost_push hmost t) (Nat.le_refl _)
  | next worker =>
    exact hbounded (hvalid.next worker) (hvalid.atMost_next hmost worker) (Nat.le_max_left ..)
  | complete => exact hbounded hvalid.complete hmost (Nat.le_max_left ..)
  | clear => exact hcleared hvalid.clear rfl
  | abort => exact hcleared hvalid.abort rfl
  | prepare policy partitions =>
    exact ⟨⟨_, hvalid.prepare policy partitions⟩,
      (g.scheduler.atMost_prepare policy partitions).mono (Nat.le_add_right ..)⟩
  | size | isEmpty | priorityOf v | programOf v | policy =>
    exact hbounded hvalid hmost (Nat.le_max_left ..)

/-- What any number of calls preserve. -/
theorem after (h : g.Bounded) (ops : List (Scheduler.Operation P)) : (g.after ops).Bounded := by
  induction ops generalizing g with
  | nil => exact h
  | cons op ops ih => exact ih (h.perform op)

end Bounded

end Gauge

namespace Scheduler

variable {P : Type}

/-- Whatever calls are made on a new scheduler: if it then hands out by priority, its agenda is a
heap that has one entry for each pending task as it stands, and besides these no more than the
largest number of tasks that were pending at once since the last preparation. Right after a push
that raises a priority, at most half of the entries are stale. -/
theorem heap_bounded (policy : Policy) (partitions : Nat) (ops : List (Operation P))
    (hpolicy : ((Scheduler.new policy partitions : Scheduler P).after ops).policy = .priority) :
    let s : Scheduler P := (Scheduler.new policy partitions).after ops
    let peak := ((Gauge.new policy partitions : Gauge P).after ops).peak
    ∃ heap, s.agenda = .ranked heap ∧
      (∀ (v : VertexIndex) (p : Pending P), s.pending[v]? = some p →
        heap.toList.count ⟨p.priority, p.seq, v⟩ = 1) ∧
      heap.toList.length ≤ s.size + peak ∧
      ∀ (t : Task P) (p : Pending P), s.pending[t.vertex]? = some p → p.priority < t.priority →
        ∃ heap', (s.push t).2.agenda = .ranked heap' ∧
          heap'.toList.length ≤ 2 * (s.push t).2.size := by
  intro s peak
  obtain ⟨⟨n, hvalid⟩, hmost⟩ :=
    (Gauge.Bounded.new policy partitions : Gauge.Bounded (P := P) _).after ops
  have hs : ((Gauge.new policy partitions : Gauge P).after ops).scheduler = s :=
    Gauge.scheduler_after ..
  rw [hs] at hvalid hmost
  obtain ⟨heap, hheap, hholds⟩ := hvalid.exists_heap hpolicy
  rw [hheap] at hmost
  refine ⟨heap, hheap, fun v p hp => hholds.once _ (mem_entries.mpr ⟨p, hp, rfl, rfl⟩), hmost.2, ?_⟩
  intro t p hv hp
  have hraised := hvalid.atMost_raise hv hp
  have hpolicy' : (s.push t).2.policy = .priority := by
    rw [push_of_lt hv hp]
    exact hpolicy
  obtain ⟨heap', hheap', -⟩ := (hvalid.push t).exists_heap hpolicy'
  rw [hheap'] at hraised
  exact ⟨heap', hheap', hraised.2⟩

/-- Two tasks are raised and one of them is handed out: besides the entry of the task that is left
there are two, as many as were pending at once. -/
theorem heap_bounded_raised :
    let ops : List (Operation Nat) :=
      [.push ⟨0, ⟨1⟩, 0⟩, .push ⟨1, ⟨2⟩, 0⟩, .push ⟨0, ⟨3⟩, 0⟩, .push ⟨1, ⟨4⟩, 0⟩, .next 0]
    let s : Scheduler Nat := (Scheduler.new .priority 1).after ops
    let peak := ((Gauge.new .priority 1 : Gauge Nat).after ops).peak
    s.policy = .priority ∧ s.size = 1 ∧ peak = 2 ∧ ∃ heap, s.agenda = .ranked heap ∧
      heap.toList = [⟨⟨3⟩, 0, 0⟩, ⟨⟨2⟩, 1, 1⟩, ⟨⟨1⟩, 0, 0⟩] ∧
      heap.toList.length ≤ s.size + peak := by
  intro ops s peak
  obtain ⟨heap, hheap, -, hle, -⟩ := heap_bounded .priority 1 ops rfl
  have hagenda : s.agenda = .ranked (.node 3 ⟨⟨3⟩, 0, 0⟩
      (.node 2 ⟨⟨2⟩, 1, 1⟩ (.node 1 ⟨⟨1⟩, 0, 0⟩ .empty .empty) .empty) .empty) := rfl
  obtain rfl := Agenda.ranked.inj (hagenda.symm.trans hheap)
  exact ⟨rfl, by decide, by decide, _, hheap, rfl, hle⟩

end Scheduler

end VertexPrograms
