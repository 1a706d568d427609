import VertexPrograms.Proofs.Engine.Bounds
import VertexPrograms.Proofs.Engine.Calls
import VertexPrograms.Proofs.Engine.Turns

/-!
# The life of an engine

Whatever is done with an engine, and whatever its programs and aggregators do, it does not move back
through its phases, and it has pending tasks only for vertices it has. It owns nothing in the first
phase but globals that were registered in the table it hands out, and nothing at all in the last.
Its graph is frozen while it is completed, and never changes its shape from the first start until
the engine is destroyed. A start that panics breaks off a run that has hardly begun: it may leave
the graph frozen, or the engine running for ever.
-/

namespace VertexPrograms

variable {V E M P : Type}

theorem Scheduler.tasks_of_empty {s : Scheduler P} (h : s.pending = ∅) : s.tasks = [] := by
  rw [tasks_eq, inOrder_empty h, List.map_nil]

/-- In an empty table nothing can be set. -/
theorem Globals.set_empty (key : String) (value : Value) :
    ({} : Globals).set key value = .error (.unknownGlobal key) := by
  simp [set, update, entry]

/-- Nothing but a registration changes a table without entries. -/
theorem Globals.perform_empty {c : Globals.Call}
    (hc : ∀ key value constant, c ≠ .insert key value constant) :
    (({} : Globals).perform c).2 = {} := by
  cases c with
  | insert key value constant => exact absurd rfl (hc key value constant)
  | set key value =>
    rw [perform, set_empty]
    rfl
  | update key f => simp [perform, Globals.value, entry, Functor.map, Except.map]
  | _ => rfl

namespace Phase

/-- The place of a phase in the life of an engine. To run once more is no way back. -/
def rank : Phase → Nat
  | created => 0
  | configured => 1
  | running | completed => 2
  | destroyed => 3

/-- After a call that configures, the engine is not as it was created. -/
theorem configure_ne_created (p : Phase) : p.configure ≠ created := by
  cases p <;> decide

theorem configure_eq {p q : Phase} (hq : q = running ∨ q = completed ∨ q = destroyed) :
    p.configure = q ↔ p = q := by
  rcases hq with rfl | rfl | rfl <;> cases p <;> decide

theorem isIdle_of_isSetup {p : Phase} (h : p.isSetup = true) : p.isIdle = true := by
  cases p <;> first | rfl | cases h

theorem rank_le (p : Phase) : p.rank ≤ destroyed.rank := by
  cases p <;> decide

theorem eq_destroyed {p : Phase} (h : destroyed.rank ≤ p.rank) : p = destroyed := by
  cases p <;> first | rfl | exact absurd h (by decide)

theorem rank_le_completed {p : Phase} (h : p.isReady = true) : p.rank ≤ completed.rank := by
  cases p <;> first | decide | cases h

/-- To configure moves no phase backward. -/
theorem rank_configure (p : Phase) : p.rank ≤ p.configure.rank := by
  cases p <;> decide

end Phase

namespace Engine

variable {host : Host} {e e' : Engine V E M P} {answer : Except Error Unit}

/-- The engine owns no graph, no globals, no aggregators and no pending tasks. -/
structure Blank (e : Engine V E M P) : Prop where
  store : e.store = {}
  globals : e.globals = {}
  registry : e.registry = {}
  tasks : e.scheduler.tasks = []

/-- What holds of an engine between operations. -/
structure Lawful (e : Engine V E M P) : Prop where
  valid : e.store.Valid
  created : e.phase = .created → e.store = {} ∧ e.registry = {} ∧ e.scheduler.tasks = []
  /-- An engine that is completed, or is left running, has a graph that is final. -/
  begun : e.phase = .running ∨ e.phase = .completed → e.store.frozen = true ∧
    0 < e.store.vertexCount
  tasks : e.scheduler.Fits e.store.vertexCount
  destroyed : e.phase = .destroyed → e.Blank

theorem Lawful.new (config : Config) (processors : Nat) (programs : P → Program V E M P)
    (memory : M) : (Engine.new config processors programs memory).Lawful where
  valid := .empty
  created _ := ⟨rfl, rfl, Scheduler.tasks_of_empty rfl⟩
  begun := by rintro (⟨⟨⟩⟩ | ⟨⟨⟩⟩)
  tasks := .new ..
  destroyed := nofun

/-- A completed engine has a vertex. -/
theorem Lawful.nonempty (h : e.Lawful) (hphase : e.phase = .completed) : 0 < e.store.vertexCount :=
  (h.begun (.inr hphase)).2

/-! # Calls -/

/-- Setting something up leaves the first phase and keeps what holds. -/
private theorem Lawful.setUp (h : e.Lawful) (hidle : e.phase.isIdle = true)
    (hphase : e'.phase = e.phase) (hvalid : e'.store.Valid)
    (hfrozen : e'.store.frozen = e.store.frozen)
    (hcount : e.store.vertexCount ≤ e'.store.vertexCount)
    (htasks : e'.scheduler.Fits e'.store.vertexCount) : e'.markConfigured.Lawful := by
  have hphase' : e'.markConfigured.phase = e.phase.configure := congrArg Phase.configure hphase
  refine ⟨hvalid, fun hcreated => ?_, fun hbegun => ?_, htasks, fun hd => ?_⟩
  · exact absurd (hphase' ▸ hcreated) (Phase.configure_ne_created _)
  · rw [hphase', Phase.configure_eq (.inl rfl), Phase.configure_eq (.inr (.inl rfl))] at hbegun
    obtain ⟨hclosed, hnonempty⟩ := h.begun hbegun
    exact ⟨hfrozen.trans hclosed, Nat.lt_of_lt_of_le hnonempty hcount⟩
  · have hgone : e.phase = .destroyed := (Phase.configure_eq (.inr (.inr rfl))).mp (hphase' ▸ hd)
    rw [hgone] at hidle
    cases hidle

/-- Whatever keeps the phase, the shape of the graph and the tasks keeps what holds. -/
private theorem Lawful.keep (h : e.Lawful) (hlive : e.phase.isLive = true)
    (hphase : e'.phase = e.phase) (hvalid : e'.store.Valid)
    (hfrozen : e'.store.frozen = e.store.frozen)
    (hcount : e'.store.vertexCount = e.store.vertexCount) (hscheduler : e'.scheduler = e.scheduler)
    (hcreated : e.phase = .created → e'.store = {} ∧ e'.registry = {}) : e'.Lawful where
  valid := hvalid
  created hc := by
    have hc : e.phase = .created := hphase ▸ hc
    exact ⟨(hcreated hc).1, (hcreated hc).2, hscheduler ▸ (h.created hc).2.2⟩
  begun hbegun := by
    rw [hfrozen, hcount]
    exact h.begun (hphase ▸ hbegun)
  tasks := hcount ▸ hscheduler ▸ h.tasks
  destroyed hd := by
    have hgone : e.phase = .destroyed := hphase ▸ hd
    rw [hgone] at hlive
    cases hlive

private theorem Lawful.destroy (h : e.Lawful) : e.destroy.Lawful := by
  rw [Engine.destroy]
  split
  · exact h
  · exact {
      valid := .empty
      created := nofun
      begun := by rintro (⟨⟨⟩⟩ | ⟨⟨⟩⟩)
      tasks := h.tasks.clear 0
      destroyed := fun _ => ⟨rfl, rfl, rfl, Scheduler.tasks_of_empty rfl⟩ }

/-- A call keeps what holds. -/
theorem Lawful.effect (h : e.Lawful) (heffect : Effect e e') : e'.Lawful := by
  cases heffect with
  | nothing => exact h
  | configured hphase config =>
    exact h.setUp (Phase.isIdle_of_isSetup hphase) rfl h.valid rfl (Nat.le_refl _) h.tasks
  | built hphase hgrows =>
    exact h.setUp (Phase.isIdle_of_isSetup hphase) rfl (hgrows.valid h.valid) hgrows.frozen
      hgrows.count (h.tasks.mono hgrows.count)
  | registered hphase globals => exact h.setUp hphase rfl h.valid rfl (Nat.le_refl _) h.tasks
  | edited hphase vertex edge =>
    have hvalid : (e.store.editData vertex edge).Valid :=
      h.valid.withCells Array.size_mapIdx Array.size_mapIdx
    refine h.keep hphase rfl hvalid rfl rfl rfl fun hc => ⟨?_, (h.created hc).2.1⟩
    simp [(h.created hc).1, Store.editData]
  | used hphase call =>
    exact h.keep hphase rfl h.valid rfl rfl rfl fun hc => ⟨(h.created hc).1, (h.created hc).2.1⟩
  | scheduled hphase hts =>
    exact h.setUp hphase rfl h.valid rfl (Nat.le_refl _) (h.tasks.pushAll hts)
  | aggregated hphase registry => exact h.setUp hphase rfl h.valid rfl (Nat.le_refl _) h.tasks
  | passed hphase hkey entries globals metrics =>
    refine h.keep hphase rfl h.valid rfl rfl rfl fun hc => ?_
    rw [(h.created hc).2.1] at hkey
    cases hkey
  | destroyed => exact h.destroy

/-- A call never moves back. -/
theorem Effect.rank_le (heffect : Effect e e') : e.phase.rank ≤ e'.phase.rank := by
  cases heffect with
  | destroyed =>
    rw [destroy]
    split
    · exact Nat.le_refl _
    · exact Phase.rank_le _
  | nothing | edited | used | passed => exact Nat.le_refl _
  | configured | built | registered | scheduled | aggregated => exact Phase.rank_configure e.phase

/-- A call on an engine that is left running leaves it so, unless it destroys the engine. -/
theorem Effect.running (hphase : e.phase = .running) (heffect : Effect e e') :
    e'.phase = .running ∨ e'.phase = .destroyed := by
  cases heffect with
  | destroyed =>
    rw [destroy, hphase]
    exact .inr rfl
  | nothing | edited | used | passed => exact .inl hphase
  | configured | built | registered | scheduled | aggregated =>
    exact .inl (congrArg Phase.configure hphase)

/-- A call leaves the shape of a graph that is frozen as it is, unless it destroys the engine. -/
theorem Effect.shape (hfrozen : e.store.frozen = true) (heffect : Effect e e') :
    e'.phase = .destroyed ∨ e'.store.frozen = true ∧ e'.store.topology = e.store.topology := by
  cases heffect with
  | destroyed =>
    refine .inl ?_
    rw [destroy]
    split
    · assumption
    · rfl
  | built _ hgrows => exact .inr ⟨hgrows.frozen.trans hfrozen, hgrows.closed hfrozen⟩
  | nothing | edited | used | passed | configured | registered | scheduled | aggregated =>
    exact .inr ⟨hfrozen, rfl⟩

private theorem during_of_destroyed {α : Type} {name : String} {allowed : Phase → Bool}
    {op : Operation V E M P α} (h : e.phase = .destroyed) (hallowed : allowed .destroyed = false) :
    Operation.during name allowed op e = (.error (.state name "destroyed"), e) := by
  rw [Operation.during, h, hallowed]
  rfl

/-- A destroyed engine refuses every call that can be refused, and nothing changes. -/
theorem perform_of_destroyed (h : e.phase = .destroyed) (c : Call V E P) {name : String}
    (hname : c.name? = some name) : c.perform e = (.error (.state name "destroyed"), e) := by
  cases c with
  | aggregateNow key =>
    cases hname
    change Engine.aggregateNow key e = _
    rw [Engine.aggregateNow]
    exact during_of_destroyed h rfl
  | useGlobals call =>
    cases hname
    change Engine.useGlobals call e = _
    rw [Engine.useGlobals]
    exact during_of_destroyed h rfl
  | _ => cases hname <;> exact during_of_destroyed h (by rfl)

/-! # Runs -/

/-- A run begins on the graph of a lawful engine. -/
theorem Lawful.orderly (h : e.Lawful) (host : Host) (workers : Nat) :
    (Team.launch host workers e).Orderly e.store.topology where
  shape := rfl
  valid := h.valid.freeze
  frozen := rfl
  phase := rfl
  locks := rfl
  tasks := h.tasks.prepare _ _
  duties w := by
    change (if w < workers then Duty.asking else .gone).Within _
    split <;> trivial

/-- What is left of the run is closed, on the graph on which it began. -/
private theorem Lawful.of_orderly {t : Topology} {r : Team V E M P} (h : r.Orderly t)
    (ht : 0 < t.vertexCount) (hphase : e'.phase = .completed) (hstore : e'.store = r.engine.store)
    (htasks : e'.scheduler.Fits t.vertexCount) : e'.Lawful where
  valid := hstore ▸ h.valid
  created hc := nomatch hphase.symm.trans hc
  begun _ := by
    rw [Store.vertexCount, hstore, h.shape]
    exact ⟨h.frozen, ht⟩
  tasks := by
    rw [Store.vertexCount, hstore, h.shape]
    exact htasks
  destroyed hd := nomatch hphase.symm.trans hd

/-- What a start that panics leaves is lawful: the graph is frozen, and may only be so while there
is one. -/
private theorem Lawful.collapse (h : e.Lawful) (host : Host) (hready : e.phase.isReady = true)
    (hcount : e.store.vertexCount ≠ 0) : (e.collapse host).Lawful := by
  have hpos : 0 < e.store.vertexCount := Nat.pos_of_ne_zero hcount
  rw [Engine.collapse]
  split
  · exact ⟨h.valid.freeze, nofun, fun _ => ⟨rfl, hpos⟩, h.tasks.prepare _ _, nofun⟩
  · refine ⟨h.valid.freeze, fun hc => ?_, fun _ => ⟨rfl, hpos⟩, h.tasks.rewind _, fun hd => ?_⟩
    · rw [hc] at hready
      cases hready
    · rw [hd] at hready
      cases hready

/-- The phase of an engine whose start has panicked. -/
theorem phase_collapse (host : Host) (e : Engine V E M P) :
    (e.collapse host).phase = .running ∨ (e.collapse host).phase = e.phase := by
  rw [Engine.collapse]
  split
  · exact .inl rfl
  · exact .inr rfl

/-- A start without memory freezes the graph. -/
theorem store_collapse (host : Host) (e : Engine V E M P) :
    (e.collapse host).store = e.store.freeze := by
  rw [Engine.collapse]
  split <;> rfl

/-- A start that panics has run no pass. -/
theorem registry_collapse (host : Host) (e : Engine V E M P) :
    (e.collapse host).registry = e.registry := by
  rw [Engine.collapse]
  split <;> rfl

/-- What closing a run leaves of the engine. -/
theorem close_cases (host : Host) (e : Engine V E M P) :
    (e.close host).2.phase = .completed ∧ (e.close host).2.store = e.store ∧
      ((e.close host).2.scheduler = e.scheduler ∨
        (e.close host).2.scheduler = e.scheduler.clear) := by
  rw [close]
  dsimp only
  split
  · exact ⟨rfl, rfl, .inr rfl⟩
  · exact ⟨rfl, rfl, .inl rfl⟩

/-- If a run that is over comes to an error, user code has failed. -/
theorem close_eq_error {error : Error} (h : (e.close host).1 = .error error) :
    ∃ text, error = .execution text := by
  rw [close] at h
  dsimp only at h
  split at h
  · exact ⟨_, (Except.error.inj h).symm⟩
  · cases h

/-- A start that is refused changes nothing, and any other leaves a lawful engine with the graph as
it was, frozen. -/
theorem Lawful.starts (h : e.Lawful) (hstarts : e.Starts host answer e') :
    e' = e ∧ (∃ name found, answer = .error (.state name found)) ∨
      e'.Lawful ∧ e.phase.isReady = true ∧ e'.store.frozen = true ∧
        e'.store.topology = e.store.topology ∧
        (answer = .error .capacity ∧ (e'.phase = .running ∨ e'.phase = e.phase) ∨
          answer ≠ .error .capacity ∧ e'.phase = .completed) := by
  cases hstarts with
  | refused | empty => exact .inl ⟨rfl, _, _, rfl⟩
  | cramped hphase hcount hroom =>
    refine .inr ⟨h.collapse host hphase hcount, hphase, ?_, ?_,
      .inl ⟨rfl, phase_collapse host e⟩⟩ <;>
    · rw [store_collapse]
      rfl
  | @ran hphase hcount hroom workers r hrun hover =>
    have horderly := (h.orderly host _).run hrun
    obtain ⟨hcompleted, hstore, hscheduler⟩ := close_cases host r.engine
    have hanswer : (r.engine.close host).1 ≠ .error .capacity := fun hcapacity => by
      obtain ⟨text, ⟨⟩⟩ := close_eq_error hcapacity
    refine .inr ⟨.of_orderly horderly (Nat.pos_of_ne_zero hcount) hcompleted hstore ?_, hphase,
      (congrArg Store.frozen hstore).trans horderly.frozen,
      (congrArg Store.topology hstore).trans horderly.shape, .inr ⟨hanswer, hcompleted⟩⟩
    rcases hscheduler with hs | hs
    · exact hs ▸ horderly.tasks
    · exact hs ▸ horderly.tasks.clear _
  | unspawned hphase hcount hroom hrun hover reason =>
    have horderly := (h.orderly host _).run hrun
    exact .inr ⟨.of_orderly horderly (Nat.pos_of_ne_zero hcount) rfl rfl horderly.tasks, hphase,
      horderly.frozen, horderly.shape, .inr ⟨nofun, rfl⟩⟩

/-- A destroyed engine refuses to start, on any host and with any workers. -/
theorem starts_of_destroyed (h : e.phase = .destroyed) (hstarts : e.Starts host answer e') :
    answer = .error (.state "start" "destroyed") ∧ e' = e := by
  have hready : e.phase.isReady = false := h ▸ rfl
  cases hstarts with
  | refused => exact ⟨by rw [h]; rfl, rfl⟩
  | empty hphase | cramped hphase | ran hphase | unspawned hphase =>
    rw [hready] at hphase
    cases hphase

/-- A run with nothing pending ends at once. -/
theorem start_of_tasks_eq_nil (host : Host) (hsound : e.scheduler.Sound)
    (htasks : e.scheduler.tasks = []) (hready : e.phase.isReady = true)
    (hcount : e.store.vertexCount ≠ 0) (hroom : e.hasRoom host = true) :
    ∃ e', e.start host 1 = some (.ok (), e') ∧ e'.phase = .completed := by
  have hnil : (e.launch host).scheduler.tasks = [] := htasks
  rcases step_cases (e := e.launch host) (hsound.prepare _ _) rfl host with ⟨-, agenda, hstep⟩ |
    ⟨t, -, ht, -⟩
  · have hlast : iterate host 1 (e.launch host) =
        some { e.launch host with scheduler := { (e.launch host).scheduler with agenda } } := by
      rw [iterate, hstep]
    have hstart : e.start host 1 = (iterate host 1 (e.launch host)).map (close host) := by
      simp [start, hready, hroom, hcount]
    rw [hstart, hlast, Option.map_some, close_of_failures rfl]
    exact ⟨_, rfl, rfl⟩
  · rw [hnil] at ht
    cases ht

/-! # Histories -/

/-- One operation, with any arguments: a call, or a start on any host, also one that panics. -/
inductive Moves (e : Engine V E M P) : Engine V E M P → Prop
  | call (c : Call V E P) : Moves e (c.perform e).2
  | start {host : Host} {answer : Except Error Unit} {e' : Engine V E M P}
      (h : e.Starts host answer e') : Moves e e'

/-- Operations in a row. -/
abbrev History : Engine V E M P → Engine V E M P → Prop := Relation.ReflTransGen Moves

/-- An operation keeps what holds. -/
theorem Lawful.moves (h : e.Lawful) (hmoves : Moves e e') : e'.Lawful := by
  cases hmoves with
  | call c => exact h.effect (c.effect h.valid)
  | start hstarts =>
    rcases h.starts hstarts with ⟨rfl, -⟩ | ⟨h', -⟩
    · exact h
    · exact h'

/-- Whatever is done with a lawful engine, it stays lawful. -/
theorem Lawful.history (h : e.Lawful) (hhistory : History e e') : e'.Lawful := by
  induction hhistory with
  | refl => exact h
  | tail _ hmoves ih => exact ih.moves hmoves

/-- No operation moves back. -/
theorem Lawful.rank_le (h : e.Lawful) (hmoves : Moves e e') : e.phase.rank ≤ e'.phase.rank := by
  cases hmoves with
  | call c => exact (c.effect h.valid).rank_le
  | start hstarts =>
    rcases h.starts hstarts with ⟨rfl, -⟩ | ⟨-, hready, -, -, ⟨-, hphase | hphase⟩ | ⟨-, hphase⟩⟩
    · exact Nat.le_refl _
    · exact hphase ▸ Phase.rank_le_completed hready
    · exact Nat.le_of_eq (congrArg Phase.rank hphase.symm)
    · exact hphase ▸ Phase.rank_le_completed hready

/-- An engine that is left running can only be destroyed. -/
theorem Lawful.running (h : e.Lawful) (hphase : e.phase = .running) (hmoves : Moves e e') :
    e'.phase = .running ∨ e'.phase = .destroyed := by
  cases hmoves with
  | call c => exact (c.effect h.valid).running hphase
  | start hstarts =>
    rcases h.starts hstarts with ⟨rfl, -⟩ | ⟨-, hready, -⟩
    · exact .inl hphase
    · rw [hphase] at hready
      cases hready

/-- A graph that is frozen keeps its shape until the engine is destroyed. -/
theorem Lawful.shape (h : e.Lawful) (hfrozen : e.store.frozen = true) (hhistory : History e e') :
    e'.phase = .destroyed ∨ e'.store.frozen = true ∧ e'.store.topology = e.store.topology := by
  -- No operation but the last one thaws a graph, and a destroyed engine stays destroyed.
  induction hhistory with
  | refl => exact .inr ⟨hfrozen, rfl⟩
  | @tail e₁ e₂ hbefore hmoves ih =>
    have h₁ : e₁.Lawful := h.history hbefore
    rcases ih with hgone | ⟨hclosed, hshape⟩
    · exact .inl (Phase.eq_destroyed (hgone ▸ h₁.rank_le hmoves))
    · cases hmoves with
      | call c =>
        refine ((c.effect h₁.valid).shape hclosed).imp_right fun hsame => ?_
        exact ⟨hsame.1, hsame.2.trans hshape⟩
      | start hstarts =>
        rcases h₁.starts hstarts with ⟨rfl, -⟩ | ⟨-, -, hclosed', hshape', -⟩
        · exact .inr ⟨hclosed, hshape⟩
        · exact .inr ⟨hclosed', hshape'.trans hshape⟩

/-! # Histories without a panic -/

/-- One operation that comes back: a call, or a start that does not panic. -/
inductive Returns (e : Engine V E M P) : Engine V E M P → Prop
  | call (c : Call V E P) : Returns e (c.perform e).2
  | start {host : Host} {answer : Except Error Unit} {e' : Engine V E M P}
      (h : e.Starts host answer e') (hanswer : answer ≠ .error .capacity) : Returns e e'

theorem Returns.moves (h : e.Returns e') : e.Moves e' := by
  cases h with
  | call c => exact .call c
  | start h => exact .start h

theorem history_of_returns (h : Relation.ReflTransGen Returns e e') : History e e' :=
  Relation.ReflTransGen.mono (fun _ _ => Returns.moves) _ _ h

/-- The engine is not left running, and its graph is frozen exactly while it is completed. -/
structure Steady (e : Engine V E M P) : Prop where
  idle : e.phase ≠ .running
  frozen : e.store.frozen = true ↔ e.phase = .completed

theorem Steady.new (config : Config) (processors : Nat) (programs : P → Program V E M P)
    (memory : M) : (Engine.new config processors programs memory).Steady where
  idle := by rintro ⟨⟩
  frozen := ⟨by rintro ⟨⟩, by rintro ⟨⟩⟩

/-- A call does not begin or end what only a start and a destruction do. -/
theorem Steady.effect (h : e.Steady) (heffect : Effect e e') : e'.Steady := by
  have hconfigure {p : Phase} (hp : p = .running ∨ p = .completed ∨ p = .destroyed) :
      e.phase.configure = p ↔ e.phase = p := Phase.configure_eq hp
  cases heffect with
  | destroyed =>
    rw [destroy]
    split
    · exact h
    · exact ⟨nofun, nofun, nofun⟩
  | nothing | edited | used | passed => exact ⟨h.idle, h.frozen⟩
  | built _ hgrows =>
    refine ⟨fun hrun => h.idle ((hconfigure (.inl rfl)).mp hrun), ?_⟩
    exact (hgrows.frozen ▸ h.frozen).trans (hconfigure (.inr (.inl rfl))).symm
  | configured | registered | scheduled | aggregated =>
    refine ⟨fun hrun => h.idle ((hconfigure (.inl rfl)).mp hrun), ?_⟩
    exact h.frozen.trans (hconfigure (.inr (.inl rfl))).symm

/-- A call that returns keeps an engine steady. -/
theorem Steady.returns (h : e.Steady) (hlawful : e.Lawful) (hreturns : Returns e e') :
    e'.Steady := by
  cases hreturns with
  | call c => exact h.effect (c.effect hlawful.valid)
  | start hstarts hanswer =>
    rcases hlawful.starts hstarts with ⟨rfl, -⟩ | ⟨-, -, hfrozen, -, ⟨hcapacity, -⟩ |
      ⟨-, hcompleted⟩⟩
    · exact h
    · exact absurd hcapacity hanswer
    · exact ⟨fun hrun => (nomatch hcompleted.symm.trans hrun), fun _ => hcompleted,
        fun _ => hfrozen⟩

/-- So do all calls of a history that return. -/
theorem Steady.history (h : e.Steady) (hlawful : e.Lawful)
    (hreturns : Relation.ReflTransGen Returns e e') : e'.Steady := by
  induction hreturns with
  | refl => exact h
  | tail hbefore hlast ih => exact ih.returns (hlawful.history (history_of_returns hbefore)) hlast

/-- A completed engine stays so until it is destroyed, unless a start panics. -/
theorem Steady.completed (h : e.Steady) (hlawful : e.Lawful) (hphase : e.phase = .completed)
    (hreturns : Relation.ReflTransGen Returns e e') : e'.phase = .destroyed ∨
    e'.phase = .completed := by
  refine (hlawful.shape (h.frozen.mpr hphase) (history_of_returns hreturns)).imp_right
    fun hclosed => ?_
  exact (h.history hlawful hreturns).frozen.mp hclosed.1

/-! # Histories in which the engine registers its globals itself -/

/-- One operation by which no key is registered in the table that was handed out. -/
inductive Direct (e : Engine V E M P) : Engine V E M P → Prop
  | call (c : Call V E P) (hc : ∀ key value constant,
      c ≠ .useGlobals (.insert key value constant)) : Direct e (c.perform e).2
  | start {host : Host} {answer : Except Error Unit} {e' : Engine V E M P}
      (h : e.Starts host answer e') : Direct e e'

theorem Direct.moves (h : e.Direct e') : e.Moves e' := by
  cases h with
  | call c => exact .call c
  | start h => exact .start h

theorem history_of_direct (h : Relation.ReflTransGen Direct e e') : History e e' :=
  Relation.ReflTransGen.mono (fun _ _ => Direct.moves) _ _ h

open Operation in
/-- An engine that is still in the first phase after such an operation has no globals if it had none
before. -/
theorem Direct.globals (h : e.Direct e') (hlawful : e.Lawful)
    (hnone : e.phase = .created → e.globals = {}) : e'.phase = .created → e'.globals = {} := by
  cases h with
  | start hstarts =>
    rcases hlawful.starts hstarts with ⟨rfl, -⟩ | ⟨-, hready, -, -, ⟨-, hphase | hphase⟩ |
      ⟨-, hphase⟩⟩
    · exact hnone
    · exact fun hc => nomatch hphase.symm.trans hc
    · intro hc
      rw [← hphase, hc] at hready
      cases hready
    · exact fun hc => nomatch hphase.symm.trans hc
  | call c hc =>
    let Q : Engine V E M P → Prop := fun e => e.phase = .created → e.globals = {}
    have hQ : Q e := hnone
    have hleft (e' : Engine V E M P) : Q e'.markConfigured :=
      fun hc => absurd hc (Phase.configure_ne_created _)
    change Q (c.perform e).2
    cases c with
    | setGlobal key value =>
      refine keeps_during hQ fun _ => keeps_change hQ fun e' he' hcreated => ?_
      obtain ⟨globals, hset, rfl⟩ := ok_of_map he'
      rw [hnone hcreated, Globals.set_empty] at hset
      cases hset
    | useGlobals call =>
      refine keeps_during hQ fun _ hcreated => ?_
      change (e.globals.perform call).2 = {}
      rw [hnone hcreated]
      exact Globals.perform_empty fun key value constant hcall =>
        hc key value constant (congrArg _ hcall)
    | editData vertex edge =>
      refine keeps_during hQ fun _ => keeps_change hQ fun e' he' => ?_
      obtain rfl := Except.ok.inj he'
      exact hQ
    | aggregateNow key =>
      refine keeps_during hQ fun _ => ?_
      have hkey : e.phase = .created → e.registry.contains key = false := fun hcreated => by
        rw [(hlawful.created hcreated).2.1]
        rfl
      dsimp only
      split
      · rename_i hregistered
        split <;> exact fun hcreated => absurd (hkey hcreated) (by simp [hregistered])
      · exact hQ
    | destroy =>
      change Q e.destroy
      rw [Engine.destroy]
      split
      · exact hQ
      · exact nofun
    | setWorkers | setPolicy | setConsistency | addGlobal | addConstant | schedule | scheduleAll
    | addAggregator =>
      exact keeps_during hQ fun _ => keeps_setUp hQ fun e' _ => hleft e'
    | resize | addVertex | addEdge | setGraph =>
      exact keeps_during hQ fun _ => keeps_build hQ fun store _ => hleft { e with store }
    | state | isDestroyed | config => exact hQ
    | _ => exact keeps_during hQ fun _ => hQ

/-- Then an engine in the first phase owns nothing. -/
theorem Lawful.blank (h : e.Lawful) (hnone : e.phase = .created → e.globals = {})
    (hdirect : Relation.ReflTransGen Direct e e') (hcreated : e'.phase = .created) : e'.Blank := by
  have hglobals : e'.phase = .created → e'.globals = {} := by
    clear hcreated
    induction hdirect with
    | refl => exact hnone
    | tail hbefore hlast ih => exact hlast.globals (h.history (history_of_direct hbefore)) ih
  have hlawful := h.history (history_of_direct hdirect)
  obtain ⟨hstore, hregistry, htasks⟩ := hlawful.created hcreated
  exact ⟨hstore, hglobals hcreated, hregistry, htasks⟩

/--
After any operations on a new engine, with whatever programs, aggregators and arguments, what holds
of an engine between operations holds, no operation moves it back in its life, and everything is
there that a pass looks up by position. One that is left running by a start that panicked can only
be destroyed. Once its graph is frozen, it keeps its shape until the engine is destroyed. In
whatever way a run of any number of workers goes, it keeps the shape, and nothing is looked up that
is not there. Once the engine is destroyed, every operation that can be refused is refused and
changes nothing. To run the pending tasks one after another is one of the operations.

If no start has panicked, the engine is not running, its graph is frozen exactly while it is
completed, and once it is completed it stays so until it is destroyed. If no global has been
registered in the table that was handed out, the engine owns nothing in the first phase.
-/
theorem lifecycle {config : Config} {processors : Nat} {programs : P → Program V E M P} {memory : M}
    (h : History (Engine.new config processors programs memory) e) :
    e.Lawful ∧ e.store.Passable ∧
      (∀ e', Moves e e' → e.phase.rank ≤ e'.phase.rank ∧
        (e.phase = .running → e'.phase = .running ∨ e'.phase = .destroyed)) ∧
      (e.store.frozen = true → ∀ e', History e e' →
        e'.phase = .destroyed ∨ e'.store.frozen = true ∧ e'.store.topology = e.store.topology) ∧
      (∀ host workers r, Team.Run (Team.launch host workers e) r →
        r.engine.store.topology = e.store.topology ∧ r.InRange) ∧
      (e.phase = .destroyed →
        (∀ (c : Call V E P) name, c.name? = some name →
          c.perform e = (.error (.state name "destroyed"), e)) ∧
            (∀ host steps, e.start host steps = some (.error (.state "start" "destroyed"), e)) ∧
          ∀ host answer e', e.Starts host answer e' →
            answer = .error (.state "start" "destroyed") ∧ e' = e) ∧
      (∀ host steps answer e', e.start host steps = some (answer, e') → Moves e e') ∧
      (Relation.ReflTransGen Returns (Engine.new config processors programs memory) e →
        e.Steady ∧ (e.phase = .completed → ∀ e', Relation.ReflTransGen Returns e e' →
          e'.phase = .destroyed ∨ e'.phase = .completed)) ∧
      (Relation.ReflTransGen Direct (Engine.new config processors programs memory) e →
        e.phase = .created → e.Blank) := by
  have hnew : (Engine.new config processors programs memory).Lawful := .new ..
  have hlawful := hnew.history h
  refine ⟨hlawful, hlawful.valid.passable, fun _ hmoves => ⟨hlawful.rank_le hmoves,
    fun hphase => ?_⟩, fun hfrozen _ => hlawful.shape hfrozen, fun host workers r hrun => ?_,
    fun hphase => ⟨fun c name => perform_of_destroyed hphase c, ?_, ?_⟩,
    fun host steps answer e' hstart => .start (starts_of_start hstart), fun hreturns => ?_,
    hnew.blank fun _ => rfl⟩
  · exact hlawful.running hphase hmoves
  · have horderly := (hlawful.orderly host workers).run hrun
    exact ⟨horderly.shape, horderly.inRange⟩
  · intro host steps
    rw [Engine.start, hphase]
    rfl
  · intro host answer e' hstarts
    exact starts_of_destroyed hphase hstarts
  · have hsteady : (Engine.new config processors programs memory).Steady :=
      .new config processors programs memory
    have hsteady' := hsteady.history hnew hreturns
    exact ⟨hsteady', fun hphase e' => hsteady'.completed hlawful hphase⟩

/-- A vertex that the store accepts is added. -/
theorem moves_addVertex (raw : Int) {id : VertexId} {data : V} {i : VertexIndex} {store : Store V E}
    (hphase : e.phase.isSetup = true) (hid : VertexId.ofRaw raw = .ok id)
    (hadd : e.store.addVertex id data = .ok (i, store)) :
    Moves e { e with store }.markConfigured := by
  have hperform : e.addVertex raw data = (.ok (), { e with store }.markConfigured) := by
    rw [Engine.addVertex, Operation.during, if_pos hphase, hid]
    change Operation.change (fun e => markConfigured <$> (fun store => { e with store }) <$>
      (·.2) <$> e.store.addVertex id data) e = _
    rw [Operation.change, hadd]
    rfl
  have hmoves := Moves.call (e := e) (.addVertex raw data)
  rwa [Call.perform, hperform] at hmoves

/-- An edge that the store accepts is added. -/
theorem moves_addEdge (rawSource rawTarget : Int) {source target : VertexId} {data : E}
    {i : EdgeIndex} {store : Store V E} (hphase : e.phase.isSetup = true)
    (hsource : VertexId.ofRaw rawSource = .ok source)
    (htarget : VertexId.ofRaw rawTarget = .ok target)
    (hadd : e.store.addEdge source target data = .ok (i, store)) :
    Moves e { e with store }.markConfigured := by
  have hperform : e.addEdge rawSource rawTarget data =
      (.ok (), { e with store }.markConfigured) := by
    rw [Engine.addEdge, Operation.during, if_pos hphase, hsource, htarget]
    change Operation.change (fun e => markConfigured <$> (fun store => { e with store }) <$>
      (·.2) <$> e.store.addEdge source target data) e = _
    rw [Operation.change, hadd]
    rfl
  have hmoves := Moves.call (e := e) (.addEdge rawSource rawTarget data)
  rwa [Call.perform, hperform] at hmoves

/-- An engine with a program that counts. -/
def tally : Engine Nat Nat Unit Unit :=
  .new { workerThreads := 1 } 1 (fun _ => { name := "count", update := fun _ => .count }) ()

/-- The engine with a vertex. -/
def tallied : Engine Nat Nat Unit Unit :=
  { tally with
    phase := .configured
    store := { topology := ({} : Topology).pushVertex 7, cells := { vertices := #[10] } } }

/-- The first vertex is added to a store. -/
theorem addVertex_tallied : ({} : Store Nat Nat).addVertex 7 10 = .ok (0, tallied.store) := by
  rw [Store.addVertex, Topology.addVertex, if_neg (by decide), if_neg (by simp [Topology.indexOf?])]
  rfl

theorem moves_tally : Moves tally tallied :=
  moves_addVertex (e := tally) 7 rfl rfl addVertex_tallied

/-- An engine to which a vertex is added and which is then started is lawful and completed. -/
theorem lifecycle_tally :
    ∃ e : Engine Nat Nat Unit Unit, e.phase = .completed ∧ History tally e ∧ e.Lawful := by
  obtain ⟨e, hstart, hphase⟩ :=
    start_of_tasks_eq_nil (e := tallied) {} (Scheduler.Valid.new _ _).toSound
    (Scheduler.tasks_of_empty rfl) rfl (by decide) rfl
  have hhistory : History tally e := .tail (.single moves_tally) (.start (starts_of_start hstart))
  exact ⟨e, hphase, hhistory, (lifecycle hhistory).1⟩

/-- An engine for more workers than there is memory for. -/
def crowded : Engine Nat Nat Unit Unit :=
  .new { workerThreads := 1000000000000000000, syncThreads := 1 } 1 tally.programs ()

/-- A start that finds no memory for its agenda leaves an engine configured with a graph that is
frozen, and one that finds none for the list of its workers leaves it running. A key that is
registered in the table that was handed out leaves the engine in the first phase. -/
theorem exists_panicked_and_registered :
    (∃ e, History crowded e ∧ e.phase = .configured ∧ e.store.frozen = true) ∧
    (∃ e, History crowded e ∧ e.phase = .running) ∧
    ∃ e, History tally e ∧ e.phase = .created ∧ e.globals.contains "x" = true := by
  have hvertex := moves_addVertex (e := crowded) 7 rfl rfl addVertex_tallied
  have hcramped {e : Engine Nat Nat Unit Unit} (hready : e.phase.isReady = true)
      (hcount : e.store.vertexCount ≠ 0) (hroom : e.hasRoom {} = false) : Moves e (e.collapse {}) :=
        .start (.cramped hready hcount hroom)
  refine ⟨⟨_, .tail (.tail (.single hvertex) (.call (.setPolicy .roundRobin))) (hcramped rfl (by
    decide) rfl), rfl, rfl⟩, ⟨_, .tail (.single hvertex) (hcramped rfl (by decide) rfl), rfl⟩,
    ⟨_, .single (.call (.useGlobals (.insert "x" (.integer 1) false))), rfl, ?_⟩⟩
  exact Std.ExtTreeMap.contains_insert_self

end Engine

end VertexPrograms
