import VertexPrograms.Proofs.Engine.Passes
import VertexPrograms.Proofs.Engine.Report

/-!
# What the workers of a run record

In a run of any number of workers, each update gets its number from one worker, which then runs the
passes that are due and appends what has failed to the one list of failures. So in whatever order
the workers take their steps, the failures of a run are those of rounds that were dealt to them, and
the report of the run is that of these rounds in the order of their numbers.
-/

namespace VertexPrograms

variable {V E M P : Type}

/-- The number of the round that a worker is at, as long as passes are before it. -/
def Duty.number? : Duty V E M P → Option Nat
  | .counted _ _ count | .completed _ _ count | .passing count _ _ => some count
  | .asking | .locking _ _ | .updating _ _ | .publishing _ _ _ | .recording _ | .gone => none

/-- What a worker has appended, given the failures of the rounds that it has behind it: all of them,
but for those that it is still to record. While it runs passes, there is the round that it is at
besides. -/
def Duty.Keeps (start : Registry V E) (behind row : List Failure) : Duty V E M P → Prop
  | .passing count position fs => ∃ q : Round P, q.number = count ∧
      q.outcomes.map (·.key) = Registry.due ⟨start.entries.take position⟩ count ∧
      fs = Registry.failuresOf count q.outcomes ∧ row ++ fs = behind ++ q.failures
  | .recording fs => row ++ fs = behind
  | .asking | .locking _ _ | .updating _ _ | .publishing _ _ _ | .counted _ _ _
  | .completed _ _ _ | .gone =>
    row = behind

namespace Team

variable {r r' : Team V E M P} {start : Registry V E} {workers w : Nat} {e : Engine V E M P}
  {d : Duty V E M P} {owner : Nat → Nat} {hands : Nat → List (Round P)} {rows : Nat → List Failure}

/-- The numbers that a worker has got for its updates. -/
def held (r : Team V E M P) (hands : Nat → List (Round P)) (w : Nat) : List Nat :=
  (hands w).map (·.number) ++ (r.duty w).number?.toList

/-- The rounds that each worker has behind it and what it has appended, and who has got which
number. -/
structure Books (start : Registry V E) (owner : Nat → Nat) (hands : Nat → List (Round P))
    (rows : Nat → List Failure) (r : Team V E M P) : Prop where
  appended : Interleaves rows r.engine.failures
  once (w : Nat) : (r.held hands w).Nodup
  owned (w n : Nat) : n ∈ r.held hands w ↔ owner n = w ∧ 0 < n ∧ n ≤ r.engine.updateCount
  due (w : Nat) : ∀ q ∈ hands w, q.outcomes.map (·.key) = start.due q.number
  kept (w : Nat) : (r.duty w).Keeps start ((hands w).flatMap Round.failures) (rows w)

namespace Books

/-- What a worker is doing keeps to its part of the books. -/
theorem keeps (h : Books start owner hands rows r) (hw : r.duty w = d) :
    d.Keeps start ((hands w).flatMap Round.failures) (rows w) :=
  hw ▸ h.kept w

/-- A worker gets on with what it is doing: it appends failures, or has rounds behind it, or both.
-/
private theorem act (h : Books start owner hands rows r) (fs : List Failure) (qs : List (Round P))
    (hfailures : e.failures = r.engine.failures ++ fs)
    (hcount : e.updateCount = r.engine.updateCount)
    (hnumber : qs.map (·.number) ++ d.number?.toList = (r.duty w).number?.toList)
    (hdue : ∀ q ∈ qs, q.outcomes.map (·.key) = start.due q.number)
    (hkept : d.Keeps start ((hands w).flatMap Round.failures ++ qs.flatMap Round.failures)
      (rows w ++ fs)) : Books start owner (Function.update hands w (hands w ++ qs))
        (Function.update rows w (rows w ++ fs)) (r.act w e d) := by
  have hheld (u : Nat) : (r.act w e d).held (Function.update hands w (hands w ++ qs)) u =
      r.held hands u := by
    rw [held, held]
    by_cases hu : u = w
    · subst hu
      simp [Team.act, ← hnumber]
    · simp [Team.act, hu]
  constructor
  case appended => exact hfailures ▸ h.appended.appendAll w fs
  case once => exact fun u => hheld u ▸ h.once u
  case owned =>
    intro u n
    rw [hheld, h.owned]
    exact hcount ▸ Iff.rfl
  case due =>
    intro u q hq
    by_cases hu : u = w
    · subst hu
      rw [Function.update_self] at hq
      exact (List.mem_append.mp hq).elim (h.due u q) (hdue q)
    · rw [Function.update_of_ne hu] at hq
      exact h.due u q hq
  case kept =>
    intro u
    by_cases hu : u = w
    · subst hu
      simpa [Team.act] using hkept
    · simpa [Team.act, hu] using h.kept u

/-- A worker gets on with what it is doing, and has neither appended a failure nor a round more
behind it. -/
private theorem goOn (h : Books start owner hands rows r)
    (hfailures : e.failures = r.engine.failures) (hcount : e.updateCount = r.engine.updateCount)
    (hnumber : d.number? = (r.duty w).number?)
    (hkept : (r.duty w).Keeps start ((hands w).flatMap Round.failures) (rows w) →
      d.Keeps start ((hands w).flatMap Round.failures) (rows w)) :
    Books start owner hands rows (r.act w e d) := by
  have hact := h.act (w := w) (e := e) (d := d) [] [] (by simpa using hfailures) hcount
    (by simp [hnumber]) (by simp) (by simpa using hkept (h.kept w))
  simpa using hact

/-- Whoever counts an update holds one more number. -/
private theorem held_counted {t : Task P} {fault : Option Fault}
    (hw : r.duty w = .publishing t fault []) (hands : Nat → List (Round P)) (e : Engine V E M P)
    (n u : Nat) : (r.act w e (.counted t fault n)).held hands u = r.held hands u ++ if u = w then
  [n] else [] := by
  by_cases hu : u = w
  · subst hu
    simp [held, Team.act, hw, Duty.number?]
  · simp [held, Team.act, hu]

/-- An update gets the next number, which then belongs to its worker. -/
private theorem counted (h : Books start owner hands rows r) {t : Task P} {fault : Option Fault}
    (hw : r.duty w = .publishing t fault []) :
    Books start (Function.update owner (r.engine.updateCount + 1) w) hands rows
      (r.act w { r.engine with updateCount := r.engine.updateCount + 1 }
        (.counted t fault (r.engine.updateCount + 1))) := by
  constructor
  case appended => exact h.appended
  case once =>
    intro u
    have hfresh : r.engine.updateCount + 1 ∉ r.held hands u := by
      intro hmem
      have hle := ((h.owned u _).mp hmem).2.2
      omega
    rw [held_counted hw]
    split
    · exact List.nodup_append_comm.mp (List.nodup_cons.mpr ⟨hfresh, h.once u⟩)
    · rw [List.append_nil]
      exact h.once u
  case owned =>
    intro u n
    rw [held_counted hw, List.mem_append, h.owned]
    change _ ↔ _ ∧ 0 < n ∧ n ≤ r.engine.updateCount + 1
    by_cases hn : n = r.engine.updateCount + 1
    · have hnot : ¬r.engine.updateCount + 1 ≤ r.engine.updateCount := by omega
      rw [hn, Function.update_self]
      by_cases hu : w = u <;> simp [hu, hnot, eq_comm (a := u)]
    · have hle : n ≤ r.engine.updateCount ↔ n ≤ r.engine.updateCount + 1 := by omega
      rw [Function.update_of_ne hn]
      by_cases hu : u = w <;> simp [hu, hn, hle]
  case due => exact h.due
  case kept =>
    intro u
    by_cases hu : u = w
    · subst hu
      have hrow := h.kept u
      rw [hw] at hrow
      simpa [Team.act, Duty.Keeps] using hrow
    · simpa [Team.act, hu] using h.kept u

/-- At the beginning nobody has a number or a round behind it. -/
theorem launch (host : Host) (workers : Nat) (e : Engine V E M P) :
    Books e.registry (fun _ => 0) (fun _ => []) (fun _ => []) (Team.launch host workers e) := by
  have hduty (w : Nat) : (Team.launch host workers e).duty w = .asking ∨
      (Team.launch host workers e).duty w = .gone :=
    ite_eq_or_eq ..
  have hheld (w : Nat) : (Team.launch host workers e).held (fun _ => []) w = [] := by
    rcases hduty w with hw | hw <;> rw [held, hw] <;> rfl
  constructor
  case appended => exact .nil
  case once => exact fun w => hheld w ▸ List.nodup_nil
  case owned =>
    intro w n
    have hzero : (Team.launch host workers e).engine.updateCount = 0 := rfl
    rw [hheld, hzero]
    simp only [List.not_mem_nil, false_iff]
    omega
  case due => nofun
  case kept =>
    intro w
    rcases hduty w with hw | hw <;> rw [hw] <;> rfl

end Books

/-- What workers have appended is what the rounds tell that they have behind them, or are at. -/
def Recorded (start : Registry V E) (r : Team V E M P) : Prop :=
  ∃ owner hands rows, Books start owner hands rows r

/-- What is due among the first registrations, one more of which there is. -/
private theorem due_take_succ {i : Nat} {a : Registration V E} (ha : start.entries[i]? = some a)
    (count : Nat) : Registry.due ⟨start.entries.take (i + 1)⟩ count =
      Registry.due ⟨start.entries.take i⟩ count ++ if a.isDue count then [a.key] else [] := by
  rw [Registry.due, Registry.due, List.take_add_one, ha, Option.toList_some, List.filter_append,
    List.map_append]
  cases hdue : a.isDue count <;> simp [hdue]

/-- A registration that workers come to is one of those with which the run began. -/
private theorem Fired.exists_start (h : Fired start workers r) {i : Nat} {a : Registration V E}
    (ha : r.engine.registry.entries[i]? = some a) :
    ∃ b, start.entries[i]? = some b ∧ a.key = b.key ∧ ∀ count, a.isDue count = b.isDue count := by
  have hi : i < start.entries.length := h.length ▸ (List.getElem?_eq_some_iff.mp ha).1
  have hb : start.entries[i]? = some start.entries[i] := List.getElem?_eq_getElem hi
  obtain ⟨n, hn, -⟩ := h.fired i _ hb
  obtain rfl := Option.some.inj (ha.symm.trans hn)
  exact ⟨_, hb, rfl, fun _ => rfl⟩

/-- What one step preserves. -/
theorem Recorded.step (h : Recorded start r) (hfired : Fired start workers r)
    (hworks : Works r r') : Recorded start r' := by
  obtain ⟨owner, hands, rows, h⟩ := h
  cases hworks.step with
  | took hw | waited hw | finished hw | locked hw | entered hw | called hw | released hw
  | pushed hw | completed hw =>
    exact ⟨_, _, _, h.goOn rfl rfl (congrArg Duty.number? hw).symm fun hrow => by rwa [hw] at hrow⟩
  | counted hw => exact ⟨_, _, _, h.counted hw⟩
  | @reported w count t fault hw =>
    refine ⟨_, _, _, h.act [_] [] rfl rfl (by rw [hw]; rfl) (by simp) ?_⟩
    have hrow : rows w = (hands w).flatMap Round.failures := h.keeps hw
    exact ⟨⟨count, t, (r.engine.scopeOf t).vertex, (r.engine.programs t.program).name, some fault,
      0, []⟩, rfl, rfl, rfl, by
        simp [hrow, Round.failures, Registry.failuresOf, Engine.updateFailure]⟩
  | @succeeded w count t hw =>
    refine ⟨_, _, _, h.goOn rfl rfl (congrArg Duty.number? hw).symm fun _ => ?_⟩
    have hrow : rows w = (hands w).flatMap Round.failures := h.keeps hw
    exact ⟨⟨count, t, (r.engine.scopeOf t).vertex, (r.engine.programs t.program).name, none, 0, []⟩,
      rfl, rfl, rfl, by simp [hrow, Round.failures, Registry.failuresOf]⟩
  | @passedOver w count i fs a hw ha hdue =>
    obtain ⟨q, hnumber, houtcomes, hfs, hrow⟩ := h.keeps hw
    obtain ⟨b, hb, hsame⟩ := hfired.exists_start ha
    refine ⟨_, _, _, h.goOn rfl rfl (congrArg Duty.number? hw).symm fun _ =>
      ⟨q, hnumber, ?_, hfs, hrow⟩⟩
    have hnot : b.isDue count = false := hsame.2 count ▸ hdue
    rw [due_take_succ hb, hnot, houtcomes]
    simp
  | @passed w count i fs a hw ha hdue globals fault =>
    obtain ⟨q, hnumber, houtcomes, hfs, hrow⟩ := h.keeps hw
    obtain ⟨b, hb, hsame⟩ := hfired.exists_start ha
    refine ⟨_, _, _, h.goOn rfl rfl (congrArg Duty.number? hw).symm fun _ =>
      ⟨{ q with outcomes := q.outcomes ++ [⟨a.key, fault⟩] }, hnumber, ?_, ?_, ?_⟩⟩
    · have hyes : b.isDue count = true := hsame.2 count ▸ hdue
      rw [due_take_succ hb, hyes, List.map_append, houtcomes, ← hsame.1]
      rfl
    · rw [hfs, Registry.failuresOf, Registry.failuresOf, Registry.failuresOf, List.filterMap_append]
    · have hq : Round.failures { q with outcomes := q.outcomes ++ [⟨a.key, fault⟩] } =
          q.failures ++ Registry.failuresOf count [⟨a.key, fault⟩] := by
        simp [Round.failures, Registry.failuresOf, hnumber]
      rw [hq, ← List.append_assoc, ← List.append_assoc, hrow]
  | @allPassed w count i fs hw hi =>
    obtain ⟨q, hnumber, houtcomes, hfs, hrow⟩ := h.keeps hw
    have hall : start.entries.take i = start.entries :=
      List.take_of_length_le (hfired.length ▸ List.getElem?_eq_none_iff.mp hi)
    rw [hall] at houtcomes
    refine ⟨_, _, _, h.act [] [q] (by simp) rfl (by rw [hw]; simp [hnumber, Duty.number?]) ?_ ?_⟩
    · simpa [hnumber] using houtcomes
    · simpa [Duty.Keeps] using hrow
  | @recorded w f fs hw =>
    refine ⟨_, _, _, h.act [_] [] rfl rfl (by rw [hw]; rfl) (by simp) ?_⟩
    have hrow : rows w ++ f :: fs = (hands w).flatMap Round.failures := h.keeps hw
    simpa [Duty.Keeps] using hrow
  | @returned w hw =>
    refine ⟨_, _, _, h.goOn rfl rfl (congrArg Duty.number? hw).symm fun _ => ?_⟩
    have hrow : rows w ++ [] = (hands w).flatMap Round.failures := h.keeps hw
    simpa [Duty.Keeps] using hrow
  | aborted | measured => exact ⟨_, _, _, h.appended, h.once, h.owned, h.due, h.kept⟩
  | @lost w =>
    rcases hworks.stay w (by simp [Team.act]) with hw | hw <;>
      exact ⟨_, _, _, h.goOn rfl rfl (congrArg Duty.number? hw).symm fun hrow => by
        rwa [hw] at hrow⟩

/-- What a run preserves in which nobody is cut off. -/
theorem recorded_of_works {host : Host}
    (h : Relation.ReflTransGen Works (launch host workers e) r) : Fired e.registry workers r ∧
    Recorded e.registry r := by
  induction h with
  | refl => exact ⟨.launch host workers e, _, _, _, .launch host workers e⟩
  | tail _ hworks ih => exact ⟨ih.1.step hworks, ih.2.step ih.1 hworks⟩

/-- There are rounds with some numbers if there is one with each. -/
private theorem exists_rounds {ns : List Nat} {p : Round P → Prop}
    (h : ∀ n ∈ ns, ∃ q, p q ∧ q.number = n) : ∃ qs : List (Round P), qs.map (·.number) = ns ∧
    ∀ q ∈ qs, p q := by
  induction ns with
  | nil => exact ⟨[], rfl, nofun⟩
  | cons n ns ih =>
    obtain ⟨q, hq, hnumber⟩ := h n List.mem_cons_self
    obtain ⟨qs, hnumbers, hqs⟩ := ih fun m hm => h m (List.mem_cons_of_mem n hm)
    exact ⟨q :: qs, by rw [List.map_cons, hnumber, hnumbers], List.forall_mem_cons.mpr ⟨hq, hqs⟩⟩

/-- When everybody has left, there is a round for each number, and the failures are those of these
rounds. -/
theorem Recorded.exists_dealt (h : Recorded start r) (hover : r.Over) :
    ∃ (qs : List (Round P)) (owner : Nat → Nat) (hands : Nat → List (Round P)),
      qs.map (·.number) = List.range' 1 r.engine.updateCount ∧
      (∀ q ∈ qs, q.outcomes.map (·.key) = start.due q.number) ∧
        Round.Dealt qs owner hands r.engine.failures := by
  obtain ⟨owner, hands, rows, h⟩ := h
  have hheld (w : Nat) : r.held hands w = (hands w).map (·.number) := by
    simp [held, hover w, Duty.number?]
  have howned (w n : Nat) : n ∈ (hands w).map (·.number) ↔ owner n = w ∧ 0 < n ∧
      n ≤ r.engine.updateCount :=
    hheld w ▸ h.owned w n
  have honce (w : Nat) : ((hands w).map (·.number)).Nodup := hheld w ▸ h.once w
  obtain ⟨qs, hnumbers, hqs⟩ : ∃ qs : List (Round P),
      qs.map (·.number) = List.range' 1 r.engine.updateCount ∧ ∀ q ∈ qs,
      q ∈ hands (owner q.number) := by
    refine exists_rounds fun n hn => ?_
    have hn : 0 < n ∧ n ≤ r.engine.updateCount := by
      rw [List.mem_range'_1] at hn
      omega
    obtain ⟨q, hq, rfl⟩ := List.mem_map.mp ((howned (owner n) n).mpr ⟨rfl, hn⟩)
    exact ⟨q, hq, rfl⟩
  have hnodup : (qs.map (·.number)).Nodup := hnumbers ▸ List.nodup_range'
  refine ⟨qs, owner, hands, hnumbers, fun q hq => h.due _ q (hqs q hq), fun w => ?_, ?_⟩
  · refine (List.perm_ext_iff_of_nodup (honce w).of_map (hnodup.of_map.filter _)).mpr fun q => ?_
    rw [List.mem_filter, decide_eq_true_iff]
    constructor
    · intro hq
      obtain ⟨howner, hn⟩ := (howned w q.number).mp (List.mem_map_of_mem hq)
      have hmem : q.number ∈ qs.map (·.number) := by
        rw [hnumbers, List.mem_range'_1]
        omega
      obtain ⟨q', hq', hsame⟩ := List.mem_map.mp hmem
      have hown : q' ∈ hands w := howner ▸ hsame ▸ hqs q' hq'
      exact ⟨List.inj_on_of_nodup_map (honce w) hown hq hsame ▸ hq', howner⟩
    · rintro ⟨hq, rfl⟩
      exact hqs q hq
  · have hrows : rows = fun w => (hands w).flatMap Round.failures := by
      funext w
      exact h.keeps (hover w)
    exact hrows ▸ h.appended

end Team

namespace Engine

variable {host : Host} {e e' : Engine V E M P} {answer : Except Error Unit}

/-- A run in which all workers could be started reports its rounds. -/
theorem Ends.reported (h : e.Ends host answer e')
    (hanswer : ∀ reason, answer ≠ .error (.construction reason)) : ∃ qs : List (Round P),
    qs.map (·.number) = List.range' 1 e'.updateCount ∧
      (∀ q ∈ qs, q.outcomes.map (·.key) = e.registry.due q.number) ∧
        Reported e.registry qs answer e' := by
  cases h with
  | @closed _ _ _ workers b hrun hover contention =>
    have hworks : Relation.ReflTransGen Team.Works (Team.launch host workers e) b.team :=
      hrun.lift Ledger.team fun _ _ hstep => hstep.team
    obtain ⟨qs, owner, hands, hnumbers, hdue, hdealt⟩ :=
      (Team.recorded_of_works hworks).2.exists_dealt hover
    refine ⟨qs, (close_updateCount _ _).symm ▸ hnumbers, hdue, close_reported host ?_ hdue hdealt⟩
    exact hnumbers ▸ List.pairwise_lt_range'
  | unspawned _ _ _ _ _ reason => exact absurd rfl (hanswer reason)

/-- However the numbers of the updates belong to workers, whatever rounds they have, and in whatever
order their failures have been appended to the one list, what closing the run leaves and answers is
told by the rounds in the order of their numbers. That each number belongs to one worker, which
appends the failures of its rounds in order, is so in every run in which nobody is cut off. So the
report of such a run is that of its rounds. -/
theorem report_of_rounds (V E M P : Type) :
    (∀ (ι : Type) [DecidableEq ι] (host : Host) (e : Engine V E M P) (r : Registry V E)
      (qs : List (Round P)) (owner : Nat → ι) (hands : ι → List (Round P)),
      (qs.map (·.number)).Pairwise (· < ·) → (∀ q ∈ qs, q.outcomes.map (·.key) = r.due q.number) →
        Round.Dealt qs owner hands e.failures → Reported r qs (e.close host).1 (e.close host).2) ∧
    (∀ (host : Host) (e : Engine V E M P) (workers : Nat) (r : Team V E M P),
      Relation.ReflTransGen Team.Works (Team.launch host workers e) r → r.Over →
        ∃ (qs : List (Round P)) (owner : Nat → Nat) (hands : Nat → List (Round P)),
          qs.map (·.number) = List.range' 1 r.engine.updateCount ∧
          (∀ q ∈ qs, q.outcomes.map (·.key) = e.registry.due q.number) ∧
          Round.Dealt qs owner hands r.engine.failures) ∧
    ∀ (host : Host) (e e' : Engine V E M P) (answer : Except Error Unit), e.Ends host answer e' →
      (∀ reason, answer ≠ .error (.construction reason)) →
        ∃ qs : List (Round P), qs.map (·.number) = List.range' 1 e'.updateCount ∧
          (∀ q ∈ qs, q.outcomes.map (·.key) = e.registry.due q.number) ∧
            Reported e.registry qs answer e' := by
  refine ⟨?_, ?_, ?_⟩
  · intro ι _ host e r qs owner hands hascending hdue hdealt
    exact close_reported host hascending hdue hdealt
  · intro host e workers r hworks hover
    exact (Team.recorded_of_works hworks).2.exists_dealt hover
  · intro host e e' answer hends hanswer
    exact hends.reported hanswer

/-- The round of an update that fails. -/
def failedRound (number : Nat) : Round Unit :=
  ⟨number, ⟨0, .zero, ()⟩, 7, "count", some (.panicked none), 0, []⟩

/-- An engine whose failures are to end a run, and to which the second of two has been appended
before the first. -/
def disordered : Engine Nat Nat Unit Unit :=
  { tally.aborting true with failures := (failedRound 2).failures ++ (failedRound 1).failures }

/-- The two rounds are dealt to two workers, the second one first. -/
theorem dealt_disordered : Round.Dealt [failedRound 1, failedRound 2] (fun n => n == 1)
    (fun first => if first then [failedRound 1] else [failedRound 2]) disordered.failures where
  perm w := by cases w <;> exact .refl _
  appended := by
    have happended := ((Interleaves.nil : Interleaves (fun _ : Bool => []) []).appendAll false
      (failedRound 2).failures).appendAll true (failedRound 1).failures
    have hrows :
        Function.update (Function.update (fun _ => []) false ([] ++ (failedRound 2).failures)) true
          ((Function.update (fun _ => []) false ([] ++ (failedRound 2).failures)) true ++
            (failedRound 1).failures) =
        fun first : Bool => (if first then [failedRound 1] else [failedRound 2]).flatMap
          Round.failures := by
      funext first
      cases first <;> rfl
    exact hrows ▸ happended

/-- Failures of two workers that were appended out of order, and a run of one worker in which a pass
fails. -/
theorem report_of_rounds_primed :
    Reported ({} : Registry Nat Nat) [failedRound 1, failedRound 2]
    (disordered.close {}).1 (disordered.close {}).2 ∧
    (disordered.close {}).1 = .error (.execution "count on vertex 7: panicked") ∧
    ∃ (answer : Except Error Unit) (e' : Engine Nat Nat Unit Unit) (qs : List (Round Unit)),
      primed.Ends {} answer e' ∧ qs.map (·.number) = [1] ∧
      Reported primed.registry qs answer e' := by
  obtain ⟨hreport, -, hends⟩ := report_of_rounds Nat Nat Unit Unit
  have hreported := hreport Bool {} disordered {} _ _ _ (by decide) (by decide) dealt_disordered
  refine ⟨hreported, ?_, ?_⟩
  · exact hreported.answer ((congrArg Config.abortOnError (close_config {} disordered)).trans rfl) _
      _ hreported.failures
  · obtain ⟨team, hworks, hover, hcount, habort⟩ := works_primed
    obtain ⟨own, hrun⟩ := Ledger.exists_run (b := Ledger.launch {} 1 primed) hworks
    have hclosed : primed.Ends {} _ _ := .closed rfl (by decide) rfl hrun hover 0
    rw [(close_answer _ _).mpr (by simp [habort])] at hclosed
    obtain ⟨qs, hnumbers, -, hreported⟩ := hends _ _ _ _ hclosed nofun
    rw [close_updateCount] at hnumbers
    exact ⟨_, _, qs, hclosed, hnumbers.trans (congrArg (List.range' 1) hcount), hreported⟩

end Engine

end VertexPrograms
