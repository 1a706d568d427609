import VertexPrograms.Proofs.Engine.Lifecycle
import VertexPrograms.Proofs.Engine.Machine
import VertexPrograms.Proofs.Globals.Retention

/-!
# Refusals change nothing

An error that finds fault with the arguments or with the state of the engine is a refusal. Whatever
has been done with an engine before, an operation that is refused leaves it exactly as it was. This
is so although the code of an operation changes the engine part by part, since whatever it does
after its first change can no longer be refused: a description that has passed its checks can be
loaded, and a run that begins finds the threads for its passes.
-/

namespace VertexPrograms

variable {V E M P α : Type}

/-- Whether an error finds fault with the arguments or with the state. -/
def Error.isRefusal : Error → Bool
  | state _ _ => true
  | error => error.isValidation

namespace Engine

variable {host : Host} {e e' : Engine V E M P}

/-- An operation that is refused by an engine leaves it as it was. -/
def Operation.Atomic (op : Operation V E M P α) (e : Engine V E M P) : Prop :=
  ∀ error e', op e = (.error error, e') → error.isRefusal = true → e' = e

namespace Operation.Atomic

variable {name : String} {allowed : Phase → Bool}

/-- An atomic operation is atomic where it is allowed, and refused elsewhere. -/
theorem during {op : Operation V E M P α} (h : op.Atomic e) :
    (Operation.during name allowed op).Atomic e := by
  intro error e' hop hrefusal
  rw [Operation.during] at hop
  split at hop
  · exact h error e' hop hrefusal
  · exact (Prod.mk.inj hop).2.symm

theorem ask (f : Engine V E M P → Except Error α) : (Operation.ask f).Atomic e :=
  fun _ _ hop _ => (Prod.mk.inj hop).2.symm

theorem change (f : Engine V E M P → Except Error (Engine V E M P)) :
    (Operation.change f).Atomic e := by
  intro error e' hop _
  rw [Operation.change] at hop
  split at hop
  · cases hop
  · exact (Prod.mk.inj hop).2.symm

/-- A pass that has been run is not refused: if it fails, user code has. -/
theorem aggregateNow (key : String) : (Engine.aggregateNow key).Atomic e := by
  refine during fun error e' hop hrefusal => ?_
  dsimp only at hop
  split at hop
  · split at hop
    · cases hop
    · rename_i hfault
      obtain ⟨herror, -⟩ := Prod.mk.inj hop
      obtain rfl := Except.error.inj herror
      rw [triggerError] at hfault
      split at hfault
      · obtain rfl := Except.error.inj hfault
        cases hrefusal
      · cases hfault
  · exact (Prod.mk.inj hop).2.symm

/-- A call on the table that is handed out is refused by the table, which it leaves as it was. -/
theorem useGlobals (call : Globals.Call) : (Engine.useGlobals call).Atomic e := by
  refine during fun error e' hop _ => ?_
  obtain ⟨herror, rfl⟩ := Prod.mk.inj hop
  exact congrArg (fun globals => { e with globals }) (Globals.perform_of_error call herror)

end Operation.Atomic

/-- A call that is refused changes nothing. -/
theorem Call.atomic (c : Call V E P) (e : Engine V E M P) : c.perform.Atomic e := by
  cases c with
  | aggregateNow key => exact .aggregateNow key
  | useGlobals call => exact .useGlobals call
  | destroy | state | isDestroyed | config =>
    intro error e' hop
    cases hop
  | setWorkers | setPolicy | setConsistency | resize | addVertex | addEdge | setGraph | editData
  | addGlobal
  | addConstant | setGlobal | schedule | scheduleAll | addAggregator => exact .during (.change _)
  | _ => exact .during (.ask _)

/-- A description that the store refuses is refused. -/
theorem setGraph_of_error {d : Description V E} {error : Error} (hphase : e.phase.isSetup = true)
    (hload : e.store.load d = .error error) : Engine.setGraph d e = (.error error, e) := by
  simp [Engine.setGraph, Operation.during, Operation.build, Operation.setUp, Operation.change,
    hphase, hload]

/-- The error of a run that is over is not a refusal. -/
theorem isRefusal_close {error : Error} (h : (e.close host).1 = .error error) :
    error.isRefusal = false := by
  obtain ⟨text, rfl⟩ := close_eq_error h
  rfl

/-- A start that is refused changes nothing. -/
theorem Starts.atomic {error : Error} (h : e.Starts host (.error error) e')
    (hrefusal : error.isRefusal = true) : e' = e := by
  generalize hanswer : (.error error : Except Error Unit) = answer at h
  cases h with
  | refused | empty => rfl
  | ran =>
    rw [isRefusal_close hanswer.symm] at hrefusal
    cases hrefusal
  | cramped | unspawned =>
    obtain rfl := Except.error.inj hanswer
    cases hrefusal

end Engine

namespace Machine

open Engine

variable {host : Host} {work : Work V E M P} {e : Engine V E M P} {m m' : Machine V E M P}

/-- Code that is refused leaves a machine as it was. -/
def Atomic (x : Code V E M P α) (m : Machine V E M P) : Prop :=
  ∀ error m', x.on m = (.error error, m') → error.isRefusal = true → m' = m

/-- The code of a call that is refused has changed nothing. -/
theorem atomic_code (h : e.store.Valid) (pools : Nat → Option String) (c : Call V E P) :
    Atomic (code pools c) e.machine := by
  intro error m' hop hrefusal
  rcases on_code h pools c with hcomes | ⟨n, reason, -, hreason⟩
  -- The code leaves what the call leaves, which is the engine itself.
  · obtain ⟨herror, rfl⟩ := Prod.mk.inj (hcomes.symm.trans hop)
    exact congrArg Engine.machine (c.atomic e error _ (Prod.ext herror rfl) hrefusal)
  · exact (Prod.mk.inj (hop.symm.trans hreason)).2

/-- A start is refused before it has changed anything, or panics for want of memory, or lets its
workers run. -/
theorem start_cases (host : Host) (e : Engine V E M P) :
    (∃ error e', e.Starts host (.error error) e' ∧ (error.isRefusal = true → e' = e) ∧
      ∀ work, (start host work).on e.machine = (.error error, e'.machine)) ∨
      e.phase.isReady = true ∧ e.store.vertexCount ≠ 0 ∧ e.hasRoom host = true := by
  cases hphase : e.phase.isReady with
  | false =>
    exact .inl ⟨_, e, .refused hphase, fun _ => rfl, fun work => on_start_of_not_isReady hphase⟩
  | true =>
    by_cases hcount : e.store.vertexCount = 0
    · exact .inl ⟨_, e, .empty hphase hcount, fun _ => rfl,
        fun work => on_start_of_vertexCount_eq_zero hphase hcount⟩
    · cases hroom : e.hasRoom host with
      | false => exact .inl ⟨_, _, .cramped hphase hcount hroom, nofun,
          fun work => on_start_of_not_hasRoom hphase hcount hroom⟩
      | true => exact .inr ⟨rfl, hcount, rfl⟩

/-- The code of a start that is refused has changed nothing, whatever workers would do. -/
theorem atomic_start (host : Host) (work : Work V E M P) (e : Engine V E M P) :
    Atomic (start host work) e.machine := by
  intro error m' hop hrefusal
  rcases start_cases host e with ⟨error', e', -, hsame, hfails⟩ | ⟨hphase, hcount, hroom⟩
  · obtain ⟨herror, rfl⟩ := Prod.mk.inj ((hfails work).symm.trans hop)
    obtain rfl := Except.error.inj herror
    rw [hsame hrefusal]
  -- A run that has begun may still fail, but not with a refusal.
  · rw [on_start hphase hcount hroom] at hop
    rcases hwork : work (e.launch host) with ⟨_ | reason, after⟩
    · rw [hwork] at hop
      have hclose : (after.close host).1 = .error error := congrArg Prod.fst hop
      rw [isRefusal_close hclose] at hrefusal
      cases hrefusal
    · rw [hwork] at hop
      have hunspawned : (.error (.construction s!"worker pool: {reason}") : Except Error Unit) =
          .error error :=
        congrArg Prod.fst hop
      obtain rfl := Except.error.inj hunspawned
      cases hrefusal

/-! # Histories of machines -/

/-- Workers that do what workers of a run can do. -/
def Possible (host : Host) (work : Work V E M P) (e : Engine V E M P) : Prop :=
  ∃ workers r, Team.Run (Team.launch host workers e) r ∧ r.Over ∧
    (work (e.launch host)).2 = r.engine

/-- The code of one operation is run, with any arguments: of a call, or of a start on any host. -/
inductive Moves (m : Machine V E M P) : Machine V E M P → Prop
  | call (pools : Nat → Option String) (c : Call V E P) : Moves m ((code pools c).on m).2
  | start {host : Host} {work : Work V E M P} (h : Possible host work m.engine) :
      Moves m ((start host work).on m).2

/-- Operations in a row. -/
abbrev History : Machine V E M P → Machine V E M P → Prop := Relation.ReflTransGen Moves

/-- What the code of a start makes of the machine of an engine is what a start can come to. -/
theorem starts_of_possible (h : Possible host work e) :
    ∃ answer e', e.Starts host answer e' ∧
      (start host work).on e.machine = (answer, e'.machine) := by
  rcases start_cases host e with ⟨error, e', hstarts, -, hfails⟩ | ⟨hphase, hcount, hroom⟩
  · exact ⟨_, _, hstarts, hfails work⟩
  · obtain ⟨workers, r, hrun, hover, hafter⟩ := h
    have hstart : (start host work).on e.machine = _ := on_start hphase hcount hroom
    rcases hwork : work (e.launch host) with ⟨_ | reason, after⟩
    · rw [hwork] at hstart hafter
      obtain rfl : after = r.engine := hafter
      exact ⟨_, _, .ran hphase hcount hroom hrun hover, hstart⟩
    · rw [hwork] at hstart hafter
      obtain rfl : after = r.engine := hafter
      exact ⟨_, _, .unspawned hphase hcount hroom hrun hover _, hstart⟩

/-- A machine has come from the machine of an engine only if its engine has come from that engine.
-/
theorem exists_history {e₀ : Engine V E M P} (hlawful : e₀.Lawful) (h : History e₀.machine m) :
    ∃ e, Engine.History e₀ e ∧ m = e.machine := by
  induction h with
  | refl => exact ⟨e₀, .refl, rfl⟩
  | tail _ hmoves ih =>
    obtain ⟨e, hhistory, rfl⟩ := ih
    cases hmoves with
    | call pools c =>
      rcases on_code (hlawful.history hhistory).valid pools c with hcomes | ⟨n, reason, -, hreason⟩
      · exact ⟨_, hhistory.tail (.call c), congrArg Prod.snd hcomes⟩
      · exact ⟨e, hhistory, congrArg Prod.snd hreason⟩
    | start hpossible =>
      obtain ⟨answer, e', hstarts, hstart⟩ := starts_of_possible hpossible
      exact ⟨e', hhistory.tail (.start hstarts), congrArg Prod.snd hstart⟩

/-- What becomes of an engine becomes of its machine. -/
theorem history_of_moves (h : e.store.Valid) (hmoves : e.Moves e') :
    History e.machine e'.machine := by
  cases hmoves with
  | call c =>
    have hcall : Moves e.machine ((code (fun _ => none) c).on e.machine).2 := .call _ c
    rw [comes_code h c] at hcall
    exact .single hcall
  | @start host _ _ hstarts =>
    cases hstarts with
    | refused | empty => exact .refl
    | cramped hphase hcount hroom =>
      -- It does not come to work; that of no workers at all will do.
      have hstart : Moves e.machine ((start host fun e => (none, e)).on e.machine).2 :=
        .start ⟨0, _, .refl, fun w => by simp [Team.launch], rfl⟩
      rw [on_start_of_not_hasRoom hphase hcount hroom] at hstart
      exact .single hstart
    | @ran hphase hcount hroom _ r hrun hover =>
      have hstart : Moves e.machine ((start _ fun _ => (none, r.engine)).on e.machine).2 :=
        .start ⟨_, r, hrun, hover, rfl⟩
      rw [on_start hphase hcount hroom] at hstart
      exact .single hstart
    | @unspawned hphase hcount hroom _ r hrun hover reason =>
      have hstart : Moves e.machine ((start _ fun _ => (some reason, r.engine)).on e.machine).2 :=
        .start ⟨_, r, hrun, hover, rfl⟩
      rw [on_start hphase hcount hroom] at hstart
      exact .single hstart

/-- The machines that come from the machine of an engine are those of the engines that come from it.
-/
theorem history_iff {e₀ : Engine V E M P} (hlawful : e₀.Lawful) :
    History e₀.machine m ↔ ∃ e, Engine.History e₀ e ∧ m = e.machine := by
  refine ⟨exists_history hlawful, ?_⟩
  rintro ⟨e, hhistory, rfl⟩
  induction hhistory with
  | refl => exact .refl
  | tail hbefore hmoves ih =>
    exact ih.trans (history_of_moves (hlawful.history hbefore).valid hmoves)

/-- After any operations on a new engine, an operation that is refused leaves everything exactly as
it was: the code of any call, with any arguments, and the code of a start, on any host and whatever
workers would do; and so do calls and starts of the engine itself, to which the code comes. -/
theorem atomicity {config : Config} {processors : Nat} {programs : P → Program V E M P} {memory : M}
    (h : History (Engine.new config processors programs memory).machine m) :
    (∀ pools (c : Call V E P), Atomic (code pools c) m) ∧
      (∀ host work, Atomic (start host work) m) ∧
      (∀ c : Call V E P, (code (fun _ => none) c).on m =
        ((c.perform m.engine).1, (c.perform m.engine).2.machine)) ∧
      (∀ c : Call V E P, c.perform.Atomic m.engine) ∧
      (∀ host error e', m.engine.Starts host (.error error) e' → error.isRefusal = true →
        e' = m.engine) ∧
      ∀ host steps error e', m.engine.start host steps = some (.error error, e') →
        error.isRefusal = true → e' = m.engine := by
  have hnew := Lawful.new config processors programs memory
  obtain ⟨e, hhistory, rfl⟩ := exists_history hnew h
  have hvalid : e.store.Valid := (hnew.history hhistory).valid
  refine ⟨atomic_code hvalid, fun host work => atomic_start host work e, comes_code hvalid,
    fun c => c.atomic e, fun host error e' hstarts => hstarts.atomic,
      fun host steps error e' hstart => ?_⟩
  exact (starts_of_start hstart).atomic

/-- A load is refused with a vertex that is already there. -/
private theorem load_tallied :
    tallied.store.load ⟨[(8, 1), (7, 2)], []⟩ = .error (.duplicateVertex 7) := by
  have hknown : tallied.store.topology.indexOf? 7 = some 0 := by
    simp [tallied, Topology.indexOf?_pushVertex, Topology.vertexCount]
  have hnew : tallied.store.topology.indexOf? 8 = none := by
    rw [tallied, Topology.indexOf?_pushVertex, if_neg (by decide)]
    simp [Topology.indexOf?]
  have hfirst : Description.checkVertex ⟨tallied.store.topology, ∅⟩ 8 = .ok 8 := by
    change (if Description.Known.contains _ 8 = true then _ else _) = _
    rw [if_neg (by simp [Description.Known.contains, hnew])]
    rfl
  have hsecond : Description.checkVertex ⟨tallied.store.topology,
      (∅ : Std.ExtHashSet VertexId).insert 8⟩ 7 = .error (.duplicateVertex 7) := by
    change (if Description.Known.contains _ 7 = true then _ else _) = _
    rw [if_pos (by simp [Description.Known.contains, hknown])]
    rfl
  have hopen : tallied.store.frozen = false := rfl
  rw [Store.load, hopen]
  simp only [Description.checkVertices_cons, hfirst, List.isEmpty_cons, if_false,
    Bool.false_eq_true]
  change ((fun checked => _) <$> ((Description.checkVertex _ 7 >>= _)) >>= _) = _
  rw [hsecond]
  rfl

/-- A description whose second vertex is there already adds no vertex. -/
theorem atomicity_tally : (code (fun _ => none) (.setGraph ⟨[(8, 1), (7, 2)], []⟩)).on
    tallied.machine = (.error (.duplicateVertex 7), tallied.machine) := by
  have hnew : tally.Lawful := Lawful.new ..
  have hhistory : Engine.History tally tallied := .single moves_tally
  have hcomes := comes_code (hnew.history hhistory).valid (.setGraph ⟨[(8, 1), (7, 2)], []⟩)
  have herror : ((code (fun _ => none) (.setGraph ⟨[(8, 1), (7, 2)], []⟩)).on tallied.machine).1 =
      .error (.duplicateVertex 7) :=
    (congrArg Prod.fst hcomes).trans (congrArg Prod.fst (setGraph_of_error rfl load_tallied))
  have hmachine : History tally.machine tallied.machine :=
    (history_iff hnew).mpr ⟨tallied, hhistory, rfl⟩
  exact Prod.ext herror ((atomicity hmachine).1 _ _ _ _ (Prod.ext herror rfl) rfl)

end Machine

end VertexPrograms
