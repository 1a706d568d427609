import VertexPrograms.Engine.Run

/-!
# Runs that user code cuts off

The panics of updates and passes are caught and recorded as failures. But nothing catches the panic
of a program that is asked for its name or its level, or of an error that is asked for its text.
There the worker is cut off: its task stays handed out, and what it has kept of the run is lost. The
run of one worker is then over, and is closed as if the worker had left.
-/

namespace VertexPrograms

/-- Where user code panics that is neither an update nor a pass, and what the engine is like then.
-/
structure Panics (V E M P : Type) where
  /-- A program that is asked for its level, before its update. -/
  level : Engine V E M P → Task P → Bool := fun _ _ => false
  /-- An error that is asked for its text, given its causes. -/
  text : Engine V E M P → List String → Bool := fun _ _ => false
  /-- A program that is asked for its name, after its update has been counted. -/
  name : Engine V E M P → Task P → Bool := fun _ _ => false
  /-- A program that is asked for its name once more, since its update has failed. -/
  again : Engine V E M P → Task P → Bool := fun _ _ => false

/-- Whether a fault cannot be told. What a panic has left behind is told without asking user code.
-/
def Panics.mutes {V E M P : Type} (panics : Panics V E M P) (e : Engine V E M P) : Fault → Bool
  | .reported causes => panics.text e causes
  | .panicked _ => false

/-- What is left of the entries and the globals if one of the passes that are chosen comes to a
fault that cannot be told: the pass has run, and those after it have not. -/
def Registry.cutOff? {V E : Type} (muted : Fault → Bool) (chosen : Registration V E → Bool)
    (t : Topology) (c : Cells V E) : List (Registration V E) → Globals →
    Option (List (Registration V E) × Globals)
  | [], _ => none
  | a :: rest, g =>
    if chosen a then
      let (result, g) := a.pass t c g
      let ran := { a with runs := a.runs + 1 }
      if (faultOf? result).any muted then some (ran :: rest, g)
      else (cutOff? muted chosen t c rest g).map fun (rest, g) => (ran :: rest, g)
    else (cutOff? muted chosen t c rest g).map fun (rest, g) => (a :: rest, g)

namespace Engine

variable {V E M P : Type}

/-- What a worker leaves that is cut off while it runs a task, if it is. -/
def cutOff? (panics : Panics V E M P) (host : Host) (e : Engine V E M P) (t : Task P) :
    Option (Engine V E M P) :=
  if panics.level e t then some e
  else
    let (fault, u) := e.runUpdate host t
    -- Nothing that the update asked for is published before it is known how it ended.
    if fault.any (panics.mutes u) then
      some { e with store := u.store, globals := u.globals, memory := u.memory }
    else if panics.name u t || fault.isSome && panics.again u t then some u
    else
      let r := u.report t fault
      (Registry.cutOff? (panics.mutes r) (·.isDue r.updateCount) r.store.topology r.store.cells
        r.registry.entries r.globals).map fun (entries, globals) =>
          { r with registry := ⟨entries⟩, globals }

/-- Steps of one worker until the run is over or the worker is cut off, whose metrics are lost. -/
def iterateAmid (panics : Panics V E M P) (host : Host) : Nat → Engine V E M P →
    Option (Engine V E M P)
  | 0, _ => none
  | steps + 1, e =>
    match e.scheduler.next 0 with
    | (.task t, scheduler) =>
      match { e with scheduler }.cutOff? panics host t with
      | some left => some { left with metrics := {} }
      | none => iterateAmid panics host steps ({ e with scheduler }.execute host t)
    | (_, scheduler) => some { e with scheduler }

/-- Starts a run of one worker, whom user code may cut off. -/
def startAmid (panics : Panics V E M P) (host : Host) (steps : Nat) (e : Engine V E M P) :
    Option (Except Error Unit × Engine V E M P) :=
  if !e.phase.isReady then some (.error (.state "start" e.phase.name), e)
  else if e.store.vertexCount = 0 then some (.error (.state "start" "without a graph"), e)
  else if !e.hasRoom host then some (.error .capacity, e.collapse host)
  else (iterateAmid panics host steps (e.launch host)).map (close host)

end Engine

end VertexPrograms
