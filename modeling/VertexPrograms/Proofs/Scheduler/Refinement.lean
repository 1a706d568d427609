import VertexPrograms.Proofs.Scheduler.PendingOrder

/-!
# A scheduler answers like a roster

A valid scheduler has an agenda that holds exactly its pending tasks. Each operation keeps it valid
and does to the list of pending tasks what the roster does to its own, so that the two give the same
answers to every sequence of operations: stale entries, compaction and the shape of the agenda never
show.
-/

namespace VertexPrograms

namespace Scheduler

variable {P : Type} {s : Scheduler P} {n : Nat}

/-- The numbers of pending tasks differ and are below the next one, and the agenda holds the tasks;
`n` is the number of shares, if the policy makes any. -/
structure Valid (n : Nat) (s : Scheduler P) : Prop where
  numbered : Numbered s.pending
  below : ∀ (v : VertexIndex) (p : Pending P), s.pending[v]? = some p → p.seq < s.nextSeq
  agenda : s.agenda.Holds s.policy n s.nextSeq s.entries

/-- The task of a vertex that is pending. -/
def taskOf (x : VertexIndex × Pending P) : Task P := ⟨x.1, x.2.priority, x.2.program⟩

theorem tasks_eq (s : Scheduler P) : s.tasks = s.inOrder.map taskOf := rfl

namespace Valid

/-- The entries of a valid scheduler ascend in their numbers. -/
theorem listing (h : s.Valid n) : Entry.Listing s.nextSeq s.entries :=
  Scheduler.listing h.numbered h.below

/-- A new scheduler is valid. -/
theorem new (policy : Policy) (partitions : Nat) :
    (Scheduler.new policy partitions : Scheduler P).Valid (max partitions 1) where
  numbered := Numbered.empty
  below v p hp := by simp [Scheduler.new] at hp
  agenda := by
    rw [entries, inOrder_empty rfl]
    exact Agenda.Holds.empty policy partitions 0

/-! # Pushing -/

/-- A task for a vertex without one comes last. -/
theorem push_new (h : s.Valid n) {t : Task P} (hv : s.pending[t.vertex]? = none) :
    (s.push t).1 = true ∧ (s.push t).2.Valid n ∧ (s.push t).2.tasks = s.tasks ++ [t] := by
  let p : Pending P := ⟨t.priority, s.nextSeq, t.program⟩
  let s' := (s.push t).2
  have hs' : s' = { s with
      pending := s.pending.insert t.vertex p
      agenda := s.agenda.add ⟨t.priority, s.nextSeq, t.vertex⟩
      nextSeq := s.nextSeq + 1 } := by simp only [s', push, hv, p]
  have horder : s'.inOrder = s.inOrder ++ [(t.vertex, p)] :=
    inOrder_insert_last h.numbered hv h.below (by rw [hs'])
  refine ⟨by simp only [push, hv], ?_, ?_⟩
  · change s'.Valid n
    refine ⟨?_, ?_, ?_⟩
    · rw [hs']
      exact h.numbered.insert_last h.below
    · intro v q hq
      rw [hs', lookup_insert] at hq
      rw [hs']
      split at hq
      · obtain rfl := Option.some.inj hq
        exact Nat.lt_succ_self _
      · exact Nat.lt_succ_of_lt (h.below v q hq)
    · rw [entries, horder, List.map_append, hs']
      exact h.agenda.add h.listing (Nat.le_refl _)
  · change s'.tasks = _
    rw [tasks_eq, horder, List.map_append]
    rfl

/-- A task for a vertex with a less urgent one raises the priority of that. -/
theorem push_raise (h : s.Valid n) {t : Task P} {p : Pending P} (hv : s.pending[t.vertex]? = some p)
    (hp : p.priority < t.priority) :
    (s.push t).1 = false ∧ (s.push t).2.Valid n ∧
      (s.push t).2.tasks = Roster.raise t.vertex t.priority s.tasks := by
  let p' : Pending P := { p with priority := t.priority }
  let s' := (s.push t).2
  have hs' : s' = { s with
      pending := s.pending.insert t.vertex p'
      agenda := s.agenda.raise ⟨t.priority, p.seq, t.vertex⟩ (s.pending.insert t.vertex p').size
        (isCurrent (s.pending.insert t.vertex p')) } := by simp only [s', push, hv, if_pos hp, p']
  have hpending : s'.pending = s.pending.insert t.vertex p' := by rw [hs']
  have horder : s'.inOrder = s.inOrder.map fun x => if x.1 = t.vertex then (t.vertex, p') else x :=
    inOrder_insert_same h.numbered hv rfl hpending
  have heq (x : VertexIndex × Pending P) (hx : x ∈ s.inOrder) (hxv : x.1 = t.vertex) : x.2 = p :=
    Option.some.inj ((mem_inOrder.mp hx).symm.trans (hxv ▸ hv))
  have hentries : s'.entries = s.entries.map (·.raise t.vertex t.priority) := by
    rw [entries, entries, horder, List.map_map, List.map_map]
    refine List.map_congr_left fun x hx => ?_
    by_cases hxv : x.1 = t.vertex
    · simp [entryOf, Entry.raise, hxv, heq x hx hxv, p']
    · simp [entryOf, Entry.raise, hxv]
  refine ⟨by simp only [push, hv, if_pos hp], ?_, ?_⟩
  · change s'.Valid n
    refine ⟨hpending ▸ h.numbered.insert_same hv rfl, ?_, ?_⟩
    · intro v q hq
      rw [hpending, lookup_insert] at hq
      rw [hs']
      split at hq
      · obtain rfl := Option.some.inj hq
        exact h.below t.vertex p hv
      · exact h.below v q hq
    · have he : (⟨p.priority, p.seq, t.vertex⟩ : Entry) ∈ s.entries :=
        mem_entries.mpr ⟨p, hv, rfl, rfl⟩
      have hcur (x : Entry) (hx : x ∈ s.entries.map (·.raise t.vertex t.priority)) :
          isCurrent (s.pending.insert t.vertex p') x = true :=
        hpending ▸ isCurrent_iff.mpr (hentries ▸ hx)
      rw [hentries, hs']
      exact h.agenda.raise h.listing he hp _ hcur
  · change s'.tasks = _
    rw [tasks_eq, tasks_eq, horder, Roster.raise, List.map_map, List.map_map]
    refine List.map_congr_left fun x hx => ?_
    by_cases hxv : x.1 = t.vertex
    · simp [taskOf, hxv, heq x hx hxv, p', Priority.max, hp]
    · simp [taskOf, hxv]

/-- A task for a vertex with one that is at least as urgent changes nothing. -/
theorem push_keep {t : Task P} {p : Pending P} (hv : s.pending[t.vertex]? = some p)
    (hp : ¬p.priority < t.priority) :
    s.push t = (false, s) ∧ s.tasks = Roster.raise t.vertex t.priority s.tasks := by
  refine ⟨by simp only [push, hv, if_neg hp], ?_⟩
  rw [tasks_eq, Roster.raise, List.map_map]
  refine List.map_congr_left fun x hx => ?_
  by_cases hxv : x.1 = t.vertex
  · obtain rfl : x.2 = p := Option.some.inj ((mem_inOrder.mp hx).symm.trans (hxv ▸ hv))
    simp [taskOf, hxv, Priority.max, hp]
  · simp [taskOf, hxv]

/-- Pushing keeps a scheduler valid. -/
theorem push (h : s.Valid n) (t : Task P) : (s.push t).2.Valid n := by
  cases hv : s.pending[t.vertex]? with
  | none => exact (h.push_new hv).2.1
  | some p =>
    by_cases hp : p.priority < t.priority
    · exact (h.push_raise hv hp).2.1
    · rwa [(push_keep hv hp).1]

/-! # Handing out -/

/-- What asking for a task does unless the run is aborted: it hands out the pending task that the
policy chooses, or there is none. -/
theorem next_cases (h : s.Valid n) (ha : s.aborted = false) (worker : Nat) :
    (s.inOrder = [] ∧ ∃ agenda, ({ s with agenda } : Scheduler P).Valid n ∧
      s.next worker = (if s.active = 0 then .finished else .blocked, { s with agenda })) ∨
    ∃ v p agenda, s.pending[v]? = some p ∧
      s.policy.choose? n worker Task.vertex Task.priority s.tasks = some (taskOf (v, p)) ∧
      let s' : Scheduler P :=
        { s with agenda, pending := s.pending.erase v, active := s.active + 1 }
      s'.Valid n ∧ s'.tasks = s.tasks.filter (·.vertex != v) ∧
        s.next worker = (.task (taskOf (v, p)), s') := by
  rcases h.agenda.take_cases h.listing (fun _ => isCurrent_iff) worker with
    ⟨hnil, rest, htake, hrest⟩ | ⟨e, he, hchoose, rest, htake, hrest⟩
  · refine .inl ⟨List.map_eq_nil_iff.mp hnil, rest, ⟨h.numbered, h.below, hrest⟩, ?_⟩
    simp [next, ha, htake]
  · obtain ⟨p, hp, hpriority, hseq⟩ := mem_entries.mp he
    obtain ⟨priority, seq, v⟩ := e
    dsimp only at hp hpriority hseq hrest
    subst hpriority hseq
    have hmap :=
      (s.policy.choose?_map n worker entryOf Entry.vertex Entry.priority s.inOrder).symm.trans
      hchoose
    obtain ⟨⟨u, q⟩, hx, hxe⟩ := Option.map_eq_some_iff.mp hmap
    obtain rfl : u = v := congrArg Entry.vertex hxe
    have hq : q = p := by
      have hm : (u, q) ∈ s.inOrder := s.policy.mem_of_choose?_eq_some hx
      exact Option.some.inj ((mem_inOrder.mp hm).symm.trans hp)
    subst hq
    let s' : Scheduler P :=
      { s with agenda := rest, pending := s.pending.erase u, active := s.active + 1 }
    have horder : s'.inOrder = s.inOrder.filter (·.1 != u) := inOrder_erase h.numbered rfl
    refine .inr ⟨u, q, rest, hp, ?_, ⟨h.numbered.erase, ?_, ?_⟩, ?_, ?_⟩
    · rw [tasks_eq, Policy.choose?_map]
      exact congrArg _ hx
    · intro v r hr
      rw [lookup_erase] at hr
      split at hr
      · cases hr
      · exact h.below v r hr
    · rw [entries, List.filter_map] at hrest
      rw [entries, horder]
      exact hrest
    · rw [tasks_eq, tasks_eq, horder, List.filter_map]
      rfl
    · simp [next, ha, htake, hp, taskOf]

/-- Asking for a task keeps a scheduler valid. -/
theorem next (h : s.Valid n) (worker : Nat) : (s.next worker).2.Valid n := by
  cases ha : s.aborted with
  | true => simpa [Scheduler.next, ha] using h
  | false =>
    rcases h.next_cases ha worker with ⟨_, agenda, hvalid, heq⟩ |
      ⟨v, p, agenda, _, _, hvalid, _, heq⟩
    · rwa [heq]
    · rwa [heq]

/-! # The other operations -/

theorem complete (h : s.Valid n) : s.complete.Valid n := ⟨h.numbered, h.below, h.agenda⟩

theorem clear (h : s.Valid n) : s.clear.Valid n where
  numbered := Numbered.empty
  below v p hp := by simp [Scheduler.clear] at hp
  agenda := by
    rw [entries, inOrder_empty rfl]
    exact h.agenda.cleared

theorem abort (h : s.Valid n) : s.abort.Valid n := ⟨h.clear.numbered, h.clear.below, h.clear.agenda⟩

/-- Tasks that are added in order of their numbers are held in that order. -/
private theorem foldl_add {policy : Policy} {next : Nat} {xs : List (VertexIndex × Pending P)}
    {es : List Entry} {agenda : Agenda} {k : Nat} (h : agenda.Holds policy n k es)
    (hes : Entry.Listing next (es ++ xs.map entryOf)) (hk : k ≤ next) (hbelow : ∀ e ∈ es, e.seq < k)
    (habove : ∀ x ∈ xs, k ≤ x.2.seq) :
    (xs.foldl (fun agenda (vertex, p) => agenda.add ⟨p.priority, p.seq, vertex⟩) agenda).Holds
      policy n
      next (es ++ xs.map entryOf) := by
  induction xs generalizing es agenda k with
  | nil => simpa using h.mono hk
  | cons x xs ih =>
    have hsplit : es ++ (x :: xs).map entryOf = (es ++ [entryOf x]) ++ xs.map entryOf := by simp
    have hx : k ≤ x.2.seq := habove x List.mem_cons_self
    rw [hsplit] at hes ⊢
    have hasc := List.pairwise_append.mp hes.ascending
    have hes' : Entry.Listing k es :=
      ⟨(List.pairwise_append.mp hasc.1).1,
        (List.pairwise_append.mp (List.pairwise_append.mp hes.apart).1).1, hbelow⟩
    refine ih (h.add hes' hx) hes (hes.below (entryOf x) (by simp)) ?_ ?_
    · intro e he
      rcases List.mem_append.mp he with he | he
      · have := hbelow e he
        exact Nat.lt_succ_of_lt (Nat.lt_of_lt_of_le this hx)
      · obtain rfl : e = entryOf x := by simpa using he
        exact Nat.lt_succ_self _
    · intro y hy
      exact hasc.2.2 (entryOf x) (by simp) (entryOf y) (List.mem_map_of_mem hy)

/-- Preparing a run keeps a scheduler valid, whatever its policy was. -/
theorem prepare (h : s.Valid n) (policy : Policy) (partitions : Nat) :
    (s.prepare policy partitions).Valid (max partitions 1) where
  numbered := h.numbered
  below := h.below
  agenda := by
    exact foldl_add (Agenda.Holds.empty policy partitions 0) h.listing (Nat.zero_le _) (by simp)
      (by simp)

end Valid

end Scheduler

/-- A roster that lists what is pending in a valid scheduler, in a run that has come as far. -/
structure Scheduler.Refines {P : Type} (s : Scheduler P) (r : Roster P) : Prop where
  valid : s.Valid r.shares
  tasks : s.tasks = r.tasks
  policy : s.policy = r.policy
  active : s.active = r.active
  aborted : s.aborted = r.aborted

namespace Scheduler.Refines

variable {P : Type} {s : Scheduler P} {r : Roster P}

theorem new (policy : Policy) (partitions : Nat) :
    (Scheduler.new policy partitions : Scheduler P).Refines (Roster.new policy partitions) where
  valid := Valid.new policy partitions
  tasks := by
    rw [tasks_eq, inOrder_empty rfl]
    rfl
  policy := rfl
  active := rfl
  aborted := rfl

/-- The task listed for a vertex is the one that is pending. -/
theorem taskOf?_eq (h : s.Refines r) (v : VertexIndex) :
    r.taskOf? v = (s.pending[v]?).map fun p => taskOf (v, p) := by
  rw [Roster.taskOf?, ← h.tasks, find?_tasks]
  rfl

/-- An operation that changes no more than the list keeps a roster in step if it changes the list
alike. -/
private theorem of_tasks (h : s.Refines r) {s' : Scheduler P} {tasks : List (Task P)}
    (hvalid : s'.Valid r.shares) (htasks : s'.tasks = tasks) (hpolicy : s'.policy = s.policy)
    (hactive : s'.active = s.active) (haborted : s'.aborted = s.aborted) :
    s'.Refines { r with tasks } :=
  ⟨hvalid, htasks, hpolicy.trans h.policy, hactive.trans h.active, haborted.trans h.aborted⟩

/-- Pushing answers alike. -/
theorem push (h : s.Refines r) (t : Task P) :
    (s.push t).1 = (r.push t).1 ∧ (s.push t).2.Refines (r.push t).2 := by
  have hfind := h.taskOf?_eq t.vertex
  cases hv : s.pending[t.vertex]? with
  | none =>
    obtain ⟨hnew, hvalid, htasks⟩ := h.valid.push_new hv
    rw [hv, Option.map_none] at hfind
    simp only [Roster.push, hfind]
    refine ⟨hnew, h.of_tasks hvalid (h.tasks ▸ htasks) ?_ ?_ ?_⟩ <;> simp only [Scheduler.push, hv]
  | some p =>
    rw [hv, Option.map_some] at hfind
    simp only [Roster.push, hfind]
    by_cases hp : p.priority < t.priority
    · obtain ⟨hold, hvalid, htasks⟩ := h.valid.push_raise hv hp
      refine ⟨hold, h.of_tasks hvalid (h.tasks ▸ htasks) ?_ ?_ ?_⟩ <;>
        simp only [Scheduler.push, hv, if_pos hp]
    · obtain ⟨hkeep, htasks⟩ := Valid.push_keep hv hp
      rw [hkeep]
      exact ⟨rfl, h.of_tasks h.valid (h.tasks ▸ htasks) rfl rfl rfl⟩

/-- Asking for a task answers alike. -/
theorem next (h : s.Refines r) (worker : Nat) :
    (s.next worker).1 = (r.next worker).1 ∧ (s.next worker).2.Refines (r.next worker).2 := by
  cases ha : s.aborted with
  | true => simpa [Scheduler.next, Roster.next, ha, ← h.aborted] using h
  | false =>
    have hr : r.aborted = false := h.aborted ▸ ha
    rcases h.valid.next_cases ha worker with
      ⟨hnil, agenda, hvalid, heq⟩ | ⟨v, p, agenda, hp, hchoose, hvalid, htasks, heq⟩
    · have hchoose : r.policy.choose? r.shares worker Task.vertex Task.priority r.tasks = none := by
        rw [← h.tasks, tasks_eq, hnil]
        cases r.policy <;> simp [Policy.choose?]
      rw [heq]
      simp only [Roster.next, hr, Bool.false_eq_true, if_false, hchoose]
      exact ⟨by rw [h.active], hvalid, h.tasks, h.policy, h.active, h.aborted⟩
    · rw [h.policy, h.tasks] at hchoose
      rw [heq]
      simp only [Roster.next, hr, Bool.false_eq_true, if_false, hchoose]
      exact ⟨trivial, hvalid, h.tasks ▸ htasks, h.policy, congrArg (· + 1) h.active, ha⟩

/-- Every call answers alike and leaves scheduler and roster in step. -/
theorem perform (h : s.Refines r) (op : Operation P) :
    (s.perform op).1 = (r.perform op).1 ∧ (s.perform op).2.Refines (r.perform op).2 := by
  cases op with
  | push t => exact ⟨congrArg _ (h.push t).1, (h.push t).2⟩
  | next worker => exact ⟨congrArg _ (h.next worker).1, (h.next worker).2⟩
  | complete =>
    exact ⟨rfl, h.valid.complete, h.tasks, h.policy, congrArg (· - 1) h.active, h.aborted⟩
  | clear =>
    exact ⟨rfl, h.of_tasks h.valid.clear (by rw [tasks_eq, inOrder_empty rfl]; rfl) rfl rfl rfl⟩
  | abort =>
    refine ⟨rfl, h.valid.abort, ?_, h.policy, h.active, rfl⟩
    rw [tasks_eq, inOrder_empty rfl]
    rfl
  | prepare policy partitions =>
    exact ⟨rfl, h.valid.prepare policy partitions, h.tasks, rfl, rfl, rfl⟩
  | size =>
    refine ⟨congrArg Reply.size ?_, h⟩
    rw [← h.tasks, tasks_eq, List.length_map, length_inOrder]
  | isEmpty =>
    refine ⟨congrArg Reply.isEmpty ?_, h⟩
    rw [← h.tasks, tasks_eq, List.isEmpty_map, isEmpty_inOrder]
  | priorityOf v =>
    refine ⟨congrArg Reply.priority ?_, h⟩
    rw [priorityOf?, h.taskOf?_eq, Option.map_map]
    rfl
  | programOf v =>
    refine ⟨congrArg Reply.program ?_, h⟩
    rw [programOf?, h.taskOf?_eq, Option.map_map]
    rfl
  | policy => exact ⟨congrArg _ h.policy, h⟩

/-- A scheduler and a roster in step give the same answers to any sequence of calls. -/
theorem replies (h : s.Refines r) (ops : List (Operation P)) : s.replies ops = r.replies ops := by
  induction ops generalizing s r with
  | nil => rfl
  | cons op ops ih =>
    obtain ⟨hreply, hnext⟩ := h.perform op
    simp only [Scheduler.replies, Roster.replies, hreply, ih hnext]

/-- After any calls there is a roster in step. -/
theorem after (h : s.Refines r) (ops : List (Operation P)) : ∃ r', (s.after ops).Refines r' := by
  induction ops generalizing s r with
  | nil => exact ⟨r, h⟩
  | cons op ops ih => exact ih (h.perform op).2

end Scheduler.Refines

/-- The scheduler is what some calls have made of a new one. -/
def Scheduler.Reachable {P : Type} (s : Scheduler P) : Prop :=
  ∃ policy partitions ops, s = (Scheduler.new policy partitions).after ops

/-- Every scheduler that can be reached is valid. -/
theorem Scheduler.Reachable.valid {P : Type} {s : Scheduler P} (h : s.Reachable) :
    ∃ n, s.Valid n := by
  obtain ⟨policy, partitions, ops, rfl⟩ := h
  obtain ⟨r, hr⟩ := (Refines.new policy partitions).after ops
  exact ⟨r.shares, hr.valid⟩

/-- A new scheduler answers every sequence of calls like a new roster, under every policy and for
every number of partitions. -/
theorem Scheduler.replies_eq_roster {P : Type} (policy : Policy) (partitions : Nat)
    (ops : List (Scheduler.Operation P)) :
    (Scheduler.new policy partitions).replies ops = (Roster.new policy partitions).replies ops :=
  (Refines.new policy partitions).replies ops

end VertexPrograms
