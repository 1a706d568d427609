import VertexPrograms.Program.Update
import VertexPrograms.Proofs.Scope.Footprint

/-!
# Updates that run at the same time

Two updates take turns, each making one atomic call when it has the turn. If no locks of their
scopes exclude each other and they touch nothing but graph data, it does not matter who has the turn
when: the updates end with the same answers and requests, and leave the same data, as if one had run
after the other.
-/

namespace VertexPrograms

variable {V E M P : Type}

/-- The update makes no call on the globals or on the memory that programs share. -/
def Update.DataOnly : Update V E M P → Prop
  | .done | .fail _ => True
  | .access _ next => ∀ answer, (next answer).DataOnly
  | .global _ _ | .exchange _ _ => False
  | .request _ next => ∀ answer, (next answer).DataOnly
  | .requested next => ∀ count, (next count).DataOnly

/-- What updates that run at the same time share. -/
structure Shared (V E M : Type) where
  cells : Cells V E
  globals : Globals
  memory : M

/-- What an update was told, with the call it had made. -/
inductive Told (V E M P : Type) where
  | access (call : Access V E) (answer : Except Error call.Answer)
  | global (call : Globals.Call) (answer : Except Error call.Answer)
  | exchange (change : M → M) (memory : M)
  | request (request : Request P) (answer : Except Error Unit)
  | requested (count : Nat)

/-- An update on its way: what is left of it, the tasks it has asked for, and what it was told. -/
structure Thread (V E M P : Type) where
  scope : Scope
  self : P
  rest : Update V E M P
  requests : Array (Task P) := #[]
  told : List (Told V E M P) := []

/-- How an update ended, and the tasks it has asked for. -/
structure Report (P : Type) where
  fault : Option Fault
  requests : Array (Task P)

namespace Thread

/-- Everything the update of a thread can change. -/
def state (th : Thread V E M P) (st : Shared V E M) : Update.State V E M P :=
  ⟨st.cells, st.globals, st.memory, th.requests⟩

/-- Goes on with the rest of the update. -/
def resume (th : Thread V E M P) (told : Told V E M P) (rest : Update V E M P) : Thread V E M P :=
  { th with rest, told := th.told ++ [told] }

/-- Makes the next call of a thread, unless it has ended. -/
def step (th : Thread V E M P) (st : Shared V E M) : Thread V E M P × Shared V E M :=
  match th.rest with
  | .done | .fail _ => (th, st)
  | .access call next =>
    let (answer, cells) := st.cells.perform th.scope call
    (th.resume (.access call answer) (next answer), { st with cells })
  | .global call next =>
    let (answer, globals) := st.globals.perform call
    (th.resume (.global call answer) (next answer), { st with globals })
  | .exchange change next =>
    (th.resume (.exchange change st.memory) (next st.memory),
      { st with memory := change st.memory })
  | .request r next =>
    let (answer, after) := (th.state st).request th.scope th.self r
    ({ th with requests := after.requests }.resume (.request r answer) (next answer), st)
  | .requested next => (th.resume (.requested th.requests.size) (next th.requests.size), st)

/-- How a thread has ended, if it has. -/
def report? (th : Thread V E M P) : Option (Report P) :=
  match th.rest with
  | .done => some ⟨none, th.requests⟩
  | .fail fault => some ⟨some fault, th.requests⟩
  | _ => none

/-- Runs what is left of a thread with nobody in between. -/
def runAlone (th : Thread V E M P) (st : Shared V E M) : Report P × Shared V E M :=
  let (fault, after) := th.rest.run th.scope th.self (th.state st)
  (⟨fault, after.requests⟩, ⟨after.cells, after.globals, after.memory⟩)

/-- The access that a thread makes next, if its next call is one. -/
def access? (th : Thread V E M P) : Option (Access V E) :=
  match th.rest with
  | .access call _ => some call
  | _ => none

variable {th th' : Thread V E M P} {st st' : Shared V E M}

/-- A call changes the data if it is an access, and otherwise nothing that is shared. -/
theorem step_snd (h : th.rest.DataOnly) (st : Shared V E M) : (th.step st).2 =
    match th.access? with
    | some call => { st with cells := (st.cells.perform th.scope call).2 }
    | none => st := by
  cases hrest : th.rest with
  | «global» call next | exchange change next => simp [hrest, Update.DataOnly] at h
  | _ => simp [step, access?, hrest]

/-- What a thread does next depends on the answer to its access, if it makes one. -/
theorem step_fst (h : th.rest.DataOnly) (ha : ∀ call, th.access? = some call →
    (st.cells.perform th.scope call).1 = (st'.cells.perform th.scope call).1) :
    (th.step st).1 = (th.step st').1 := by
  cases hrest : th.rest with
  | «global» call next | exchange change next => simp [hrest, Update.DataOnly] at h
  | access call next =>
    have := ha call (by simp [access?, hrest])
    simp [step, hrest, this]
  | request r next =>
    simp only [step, hrest, Update.State.request]
    cases Update.tasksOf th.scope th.self r <;> rfl
  | _ => simp [step, hrest]

/-- A thread that touches only data goes on to do so. -/
theorem step_dataOnly (h : th.rest.DataOnly) (st : Shared V E M) :
    (th.step st).1.rest.DataOnly := by
  cases hrest : th.rest with
  | «global» call next | exchange change next => simp [hrest, Update.DataOnly] at h
  | done | fail fault => simpa [step, hrest] using h
  | access call next | request r next | requested next =>
    rw [hrest] at h
    simpa [step, hrest, resume] using h _

/-- A step does not change the scope of an update. -/
theorem scope_step (th : Thread V E M P) (st : Shared V E M) : (th.step st).1.scope = th.scope := by
  cases hrest : th.rest <;> simp [step, hrest, resume]

/-- Accesses of the two threads do not meet, and the threads touch only data. -/
structure Independent (th th' : Thread V E M P) : Prop where
  apart : ∀ a b : Access V E, ¬Access.Meet th.scope a th'.scope b
  dataOnly : th.rest.DataOnly
  dataOnly' : th'.rest.DataOnly

theorem Independent.symm (h : Independent th th') : Independent th' th :=
  ⟨fun a b hm => h.apart b a hm.symm, h.dataOnly', h.dataOnly⟩

/-- Updates that are independent stay so when one of them makes a step. -/
theorem Independent.step (h : Independent th th') (st : Shared V E M) :
    Independent (th.step st).1 th' :=
  ⟨scope_step th st ▸ h.apart, step_dataOnly h.dataOnly st, h.dataOnly'⟩

/-- A thread does the same before and after a call of an independent one. -/
theorem Independent.step_fst (h : Independent th th') (st : Shared V E M) :
    (th.step (th'.step st).2).1 = (th.step st).1 := by
  refine Thread.step_fst h.dataOnly fun call _ => ?_
  rw [step_snd h.dataOnly']
  cases th'.access? with
  | none => rfl
  | some call' => exact (Access.commute_of_not_meet (h.apart call call') st.cells).first.symm

/-- Calls of independent threads have the same effect in either order. -/
theorem Independent.step_snd (h : Independent th th') (st : Shared V E M) :
    (th'.step (th.step st).2).2 = (th.step (th'.step st).2).2 := by
  rw [Thread.step_snd h.dataOnly, Thread.step_snd h.dataOnly', Thread.step_snd h.dataOnly,
    Thread.step_snd h.dataOnly']
  cases th.access? with
  | none => rfl
  | some call =>
    cases th'.access? with
    | none => rfl
    | some call' =>
      have hdata := (Access.commute_of_not_meet (h.apart call call') st.cells).data
      simp only [hdata]

/-- A thread that has ended makes no more calls. -/
theorem step_of_report (h : th.report?.isSome = true) (st : Shared V E M) :
    th.step st = (th, st) := by
  cases hrest : th.rest <;> simp_all [report?, step]

/-- What a thread comes to when run alone, it also comes to after its next call. -/
theorem runAlone_step (th : Thread V E M P) (st : Shared V E M) :
    (th.step st).1.runAlone (th.step st).2 = th.runAlone st := by
  cases hrest : th.rest with
  | done | fail fault => simp [step, hrest]
  | request r next =>
    simp only [runAlone, step, hrest, resume, state, Update.run, Update.State.request]
    cases Update.tasksOf th.scope th.self r <;> rfl
  | _ => simp [runAlone, step, hrest, resume, state, Update.run]

/-- A thread that has ended has nothing left to run. -/
theorem runAlone_of_report {r : Report P} (h : th.report? = some r) (st : Shared V E M) :
    th.runAlone st = (r, st) := by
  cases hrest : th.rest <;> simp_all [report?, runAlone, Update.run, state]

end Thread

/-- Two threads and what they share. -/
structure Pair (V E M P : Type) where
  thread : Bool → Thread V E M P
  shared : Shared V E M

namespace Pair

/-- Gives one of the threads a turn. -/
def step (p : Pair V E M P) (i : Bool) : Pair V E M P :=
  let (th, shared) := (p.thread i).step p.shared
  { thread := fun j => if j = i then th else p.thread j, shared }

/-- Gives the threads turns in the given order. -/
def play (p : Pair V E M P) (turns : List Bool) : Pair V E M P := turns.foldl step p

/-- Both threads have ended. -/
def Ended (p : Pair V E M P) : Prop := ∀ i, (p.thread i).report?.isSome = true

/-- What comes out when one thread runs to its end and then the other: their reports, and what they
leave. -/
def inTurn (p : Pair V E M P) (first : Bool) : (Bool → Report P) × Shared V E M :=
  let (r, st) := (p.thread first).runAlone p.shared
  let (r', st) := (p.thread !first).runAlone st
  (fun i => if i = first then r else r', st)

variable {p : Pair V E M P}

/-- Whose turn it is makes its step. -/
theorem thread_step_self (p : Pair V E M P) (i : Bool) :
    (p.step i).thread i = ((p.thread i).step p.shared).1 := if_pos rfl

theorem thread_step_other (p : Pair V E M P) {i j : Bool} (h : j ≠ i) :
    (p.step i).thread j = p.thread j :=
  if_neg h

theorem shared_step (p : Pair V E M P) (i : Bool) :
    (p.step i).shared = ((p.thread i).step p.shared).2 := rfl

/-- The threads of a pair are independent. -/
def Independent (p : Pair V E M P) : Prop := (p.thread false).Independent (p.thread true)

/-- The two updates of an independent pair are independent of each other. -/
theorem Independent.threads (h : p.Independent) {i j : Bool} (hij : i ≠ j) :
    (p.thread i).Independent (p.thread j) := by
  cases i <;> cases j
  · exact absurd rfl hij
  · exact h
  · exact h.symm
  · exact absurd rfl hij

/-- A step keeps a pair independent. -/
theorem Independent.step (h : p.Independent) (i : Bool) : (p.step i).Independent := by
  cases i
  · exact Thread.Independent.step h p.shared
  · exact (Thread.Independent.step (Thread.Independent.symm h) p.shared).symm

/-- Pairs are equal if their threads are and what these share. -/
private theorem ext_threads {p q : Pair V E M P} (hthread : ∀ i, p.thread i = q.thread i)
    (hshared : p.shared = q.shared) : p = q := by
  obtain ⟨thread, shared⟩ := p
  obtain ⟨thread', shared'⟩ := q
  obtain rfl : thread = thread' := funext hthread
  obtain rfl : shared = shared' := hshared
  rfl

/-- It does not matter which of two turns comes first. -/
theorem Independent.step_step (h : p.Independent) (i j : Bool) :
    (p.step i).step j = (p.step j).step i := by
  by_cases hij : i = j
  · rw [hij]
  · refine ext_threads (fun k => ?_) ?_
    · have hk : k = i ∨ k = j := by cases i <;> cases j <;> cases k <;> simp_all
      rcases hk with rfl | rfl
      · rw [thread_step_other _ hij, thread_step_self, thread_step_self, thread_step_other _ hij,
          shared_step]
        exact ((h.threads hij).step_fst p.shared).symm
      · have hji : k ≠ i := Ne.symm hij
        rw [thread_step_other _ hji, thread_step_self, thread_step_self, thread_step_other _ hji,
          shared_step]
        exact (h.threads hji).step_fst p.shared
    · rw [shared_step, shared_step, shared_step, shared_step, thread_step_other _ hij,
        thread_step_other _ (Ne.symm hij)]
      exact (h.threads hij).step_snd p.shared

/-- Only the number of turns of each thread matters. -/
theorem Independent.play_perm (h : p.Independent) {turns turns' : List Bool}
    (hperm : turns.Perm turns') : p.play turns = p.play turns' := by
  induction hperm generalizing p with
  | nil => rfl
  | cons i _ ih => exact ih (h.step i)
  | swap i j l => exact congrArg (play · l) (h.step_step j i)
  | trans _ _ ih ih' => exact (ih h).trans (ih' h)

/-- A turn of a thread that has ended changes nothing. -/
theorem step_of_report {i : Bool} (h : (p.thread i).report?.isSome = true) : p.step i = p := by
  refine ext_threads (fun j => ?_) ?_
  · by_cases hj : j = i
    · rw [hj, thread_step_self, Thread.step_of_report h]
    · exact thread_step_other p hj
  · rw [shared_step, Thread.step_of_report h]

/-- More turns change nothing once both threads have ended. -/
theorem play_of_ended (h : p.Ended) (turns : List Bool) : p.play turns = p := by
  induction turns with
  | nil => rfl
  | cons i turns ih =>
    rw [play, List.foldl_cons, step_of_report (h i)]
    exact ih

theorem play_append (p : Pair V E M P) (turns turns' : List Bool) :
    p.play (turns ++ turns') = (p.play turns).play turns' := List.foldl_append

/-- However the turns are taken, independent threads end in the same way. -/
theorem Independent.play_eq (h : p.Independent) {turns turns' : List Bool}
    (hended : (p.play turns).Ended) (hended' : (p.play turns').Ended) :
    p.play turns = p.play turns' := by
  calc
    p.play turns = p.play (turns ++ turns') := by rw [play_append, play_of_ended hended]
    _ = p.play (turns' ++ turns) := h.play_perm List.perm_append_comm
    _ = p.play turns' := by rw [play_append, play_of_ended hended']

/-- A thread ends if it has enough turns in a row. -/
theorem exists_report (p : Pair V E M P) (i : Bool) :
    ∃ n, ((p.play (List.replicate n i)).thread i).report?.isSome = true := by
  induction hrest : (p.thread i).rest generalizing p with
  | done | fail fault => exact ⟨0, by simp [play, Thread.report?, hrest]⟩
  | access call next ih | «global» call next ih | request r next ih | exchange change next ih
  | requested next ih =>
    obtain ⟨n, hn⟩ := ih _ (p.step i) (by rw [thread_step_self, Thread.step, hrest]; rfl)
    exact ⟨n + 1, hn⟩

/-- Turns of one thread leave the other where it is. -/
theorem thread_play_replicate (p : Pair V E M P) {i j : Bool} (h : j ≠ i) (n : Nat) :
    (p.play (List.replicate n i)).thread j = p.thread j := by
  induction n generalizing p with
  | zero => rfl
  | succ n ih => exact (ih (p.step i)).trans (thread_step_other p h)

/-- Turns of the thread that runs first do not change what comes out when the two run in turn. -/
theorem inTurn_play_first (p : Pair V E M P) (first : Bool) (n : Nat) :
    (p.play (List.replicate n first)).inTurn first = p.inTurn first := by
  induction n generalizing p with
  | zero => rfl
  | succ n ih =>
    refine (ih (p.step first)).trans ?_
    have hne : (!first) ≠ first := by simp
    simp only [inTurn, thread_step_self, shared_step, thread_step_other p hne, Thread.runAlone_step]

/-- Nor do turns of the thread that runs second, once the first has ended. -/
theorem inTurn_play_second {first : Bool} (h : (p.thread first).report?.isSome = true) (n : Nat) :
    (p.play (List.replicate n !first)).inTurn first = p.inTurn first := by
  induction n generalizing p with
  | zero => rfl
  | succ n ih =>
    have hne : first ≠ !first := by simp
    have hfirst : ((p.step !first).thread first).report?.isSome = true :=
      thread_step_other p hne ▸ h
    refine (ih hfirst).trans ?_
    obtain ⟨r, hr⟩ := Option.isSome_iff_exists.mp h
    simp only [inTurn, thread_step_self, shared_step, thread_step_other p hne,
      Thread.runAlone_of_report hr, Thread.runAlone_step]

/-- The threads have run one after the other, and this has come out. -/
def EndedWith (p : Pair V E M P) (result : (Bool → Report P) × Shared V E M) : Prop :=
  (∀ i, (p.thread i).report? = some (result.1 i)) ∧ p.shared = result.2

/-- A pair that has ended with a result has ended. -/
theorem EndedWith.ended {result : (Bool → Report P) × Shared V E M}
    (h : p.EndedWith result) : p.Ended :=
  fun i => by rw [h.1 i]; rfl

/-- Threads that have ended come to nothing else when run in turn. -/
theorem Ended.endedWith (h : p.Ended) (first : Bool) : p.EndedWith (p.inTurn first) := by
  obtain ⟨r, hr⟩ := Option.isSome_iff_exists.mp (h first)
  obtain ⟨r', hr'⟩ := Option.isSome_iff_exists.mp (h !first)
  simp only [EndedWith, inTurn, Thread.runAlone_of_report hr, Thread.runAlone_of_report hr',
    and_true]
  intro i
  by_cases hi : i = first
  · rw [hi, hr, if_pos rfl]
  · obtain rfl : i = !first := Bool.eq_not_of_ne hi
    rw [hr', if_neg hi]

/-- With turns of the first and then of the second each thread runs to its end. -/
theorem exists_inTurn (p : Pair V E M P) (first : Bool) :
    ∃ turns, (p.play turns).EndedWith (p.inTurn first) := by
  obtain ⟨n, hn⟩ := p.exists_report first
  obtain ⟨m, hm⟩ := (p.play (List.replicate n first)).exists_report !first
  have hne : first ≠ !first := by simp
  refine ⟨List.replicate n first ++ List.replicate m !first, ?_⟩
  rw [play_append, ← p.inTurn_play_first first n, ← inTurn_play_second hn m]
  refine Ended.endedWith (fun i => ?_) first
  by_cases hi : i = first
  · rw [hi, thread_play_replicate _ hne]
    exact hn
  · obtain rfl : i = !first := Bool.eq_not_of_ne hi
    exact hm

end Pair

/-! # Isolation -/

/-- The pair of two updates that have not begun. -/
def Update.pair (s : Scope) (self : P) (u : Update V E M P) (s' : Scope) (self' : P)
    (u' : Update V E M P) (shared : Shared V E M) : Pair V E M P where
  thread i := if i then { scope := s', self := self', rest := u' }
    else { scope := s, self, rest := u }
  shared

/-- In a graph that the store's operations have built, scopes of suitable levels whose locks do not
conflict are isolated from each other. Accesses of the two commute on any data. Updates of the two
that touch only data can be carried to their ends from wherever turns have brought them, and then
they end, however the turns were taken, with the same answers, reports and data, which are those of
running one before the other, in either order. -/
theorem Scope.isolation {g : Store V E} (hg : g.Built) {v w : VertexIndex} {l l' : Consistency}
    (hl : l.isolates l' = true) (h : Scope.Apart ⟨g.topology, v, l⟩ ⟨g.topology, w, l'⟩) :
    (∀ (c : Cells V E) (a b : Access V E), a.Commute c ⟨g.topology, v, l⟩ ⟨g.topology, w, l'⟩ b) ∧
      ∀ (self self' : P) (u u' : Update V E M P) (shared : Shared V E M), u.DataOnly → u'.DataOnly →
        let p := Update.pair ⟨g.topology, v, l⟩ self u ⟨g.topology, w, l'⟩ self' u' shared
        ∀ turns, (∃ more, (p.play (turns ++ more)).Ended) ∧
          ((p.play turns).Ended →
            (∀ first, (p.play turns).EndedWith (p.inTurn first)) ∧
              ∀ turns', (p.play turns').Ended → p.play turns' = p.play turns) := by
  have hmeet (a b : Access V E) : ¬a.Meet ⟨g.topology, v, l⟩ ⟨g.topology, w, l'⟩ b :=
    Access.not_meet hg.valid.topology hl h
  refine ⟨fun c a b => Access.commute_of_not_meet (hmeet a b) c, ?_⟩
  intro self self' u u' shared hu hu' p turns
  have hp : p.Independent := ⟨hmeet, hu, hu'⟩
  constructor
  · obtain ⟨more, hmore⟩ := (p.play turns).exists_inTurn false
    exact ⟨more, Pair.play_append p turns more ▸ hmore.ended⟩
  · intro hended
    refine ⟨fun first => ?_, fun turns' hended' => hp.play_eq hended' hended⟩
    obtain ⟨turns', hturns'⟩ := p.exists_inTurn first
    rw [hp.play_eq hended hturns'.ended]
    exact hturns'

/-- The update counts at its centre and asks for the neighbours. -/
def Update.count : Update Nat Nat Unit Unit :=
  .access (.writeCentre (· + 1)) fun _ => .request (.neighbours ⟨0⟩) fun _ => .done

/-- The outer vertices of a row share a neighbour; their updates are isolated all the same. -/
theorem Scope.isolation_row :
    let t := (Store.row 10 20 30 1 2 : Store Nat Nat).topology
    let p := Update.pair ⟨t, 0, .edge⟩ () .count ⟨t, 2, .edge⟩ () .count ⟨⟨#[10, 20, 30], #[1, 2]⟩,
      {}, ()⟩
    (p.play [false, true, true, false]).EndedWith (p.inTurn true) := by
  intro t p
  have hapart : Scope.Apart ⟨t, 0, .edge⟩ ⟨t, 2, .edge⟩ := by
    unfold Scope.Apart
    decide
  have hcount : Update.count.DataOnly := fun _ _ => trivial
  have hended : (p.play [false, true, true, false]).Ended := fun i => by cases i <;> rfl
  have h := (Scope.isolation (Store.row_built 10 20 30 1 2) rfl hapart).2 () () .count .count
    p.shared hcount hcount
  exact ((h [false, true, true, false]).2 hended).1 true

end VertexPrograms
