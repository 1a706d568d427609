import VertexPrograms.Globals.Routine
import VertexPrograms.Proofs.Graph.Editing

/-!
# Tables changed in place

The calls on the table of globals once more, as code that changes one table in place. The change of
a variable may itself be code: it is run on a copy, which becomes the value if it is of the right
kind.
-/

namespace VertexPrograms

namespace Globals

variable {g : Globals} {key : String} {e : Global}

/-- The table with an entry under a key. -/
def put (g : Globals) (key : String) (e : Global) : Globals :=
  { g with entries := g.entries.insert key e }

/-- An entry is inserted under a new key that is not empty. -/
theorem insert_eq (g : Globals) (key : String) (value : Value) (constant : Bool) :
    g.insert key value constant =
      if key = "" then .error (.invalidArgument "global key must not be empty")
      else if g.contains key then .error (.duplicateGlobal key)
      else .ok (g.put key ⟨value, constant⟩) := by
  simp only [insert, String.isEmpty_iff]
  rfl

/-- What a change of a variable comes to: the errors in the order in which they are looked for. -/
theorem update_of_ok (h : g.entry key = .ok e) (f : Value → Value) :
    g.update key f =
      if e.constant then .error (.constantGlobal key)
      else if e.value.kind ≠ .null ∧ (f e.value).kind ≠ e.value.kind then
        .error (.typeMismatch key e.value.kind.name (f e.value).kind.name)
      else .ok (g.put key { e with value := f e.value }) := by
  rw [update, h]
  rfl

/-- An update changes an entry that is there, or nothing. -/
theorem perform_update (g : Globals) (key : String) (f : Value → Value) :
    g.perform (.update key f) = match g.entry key with
      | .error error => (.error error, g)
      | .ok e => g.settle e.value (g.update key f) := by
  rw [perform, value]
  cases g.entry key <;> rfl

/-- To set a variable is to update it by a function that does not look at its argument. -/
theorem perform_set (g : Globals) (key : String) (value : Value) :
    g.perform (.set key value) =
      ((fun _ => ()) <$> (g.perform (.update key fun _ => value)).1,
        (g.perform (.update key fun _ => value)).2) := by
  rw [perform_update, perform, set]
  cases he : g.entry key with
  | error error =>
    have hrefused : g.update key (fun _ => value) = .error error := by rw [update, he]
    rw [hrefused]
    rfl
  | ok e => cases g.update key (fun _ => value) <;> rfl

end Globals

namespace Machine

variable {α : Type}

/-- Registers a key, which must be new and not empty. -/
def insertEntry (key : String) (value : Value) (constant : Bool) : InPlace Globals Unit := do
  if key.isEmpty then throw (.invalidArgument "global key must not be empty")
  if (← get).contains key then throw (.duplicateGlobal key)
  modify fun g => { g with entries := g.entries.insert key ⟨value, constant⟩ }

/-- Has code change a variable. The code is run on a copy, which becomes the value if it is of the
right kind. -/
def updateEntry (key : String) (f : StateM Value α) : InPlace Globals α := do
  let entry ← ofExcept ((← get).entry key)
  if entry.constant then throw (.constantGlobal key)
  let copy := f.run entry.value
  if entry.value.kind ≠ .null ∧ copy.2.kind ≠ entry.value.kind then
    throw (.typeMismatch key entry.value.kind.name copy.2.kind.name)
  modify fun g => { g with entries := g.entries.insert key { entry with value := copy.2 } }
  return copy.1

/-- The code of a call on the globals. -/
def tableCode : (c : Globals.Call) → InPlace Globals c.Answer
  | .contains key => do return (← get).contains key
  | .isConstant key => do ofExcept ((← get).isConstant key)
  | .keys => do return (← get).keys
  | .size => do return (← get).size
  | .value key => do ofExcept ((← get).value key)
  | .get key wanted => do ofExcept ((← get).get key wanted)
  | .insert key value constant => insertEntry key value constant
  | .set key value => updateEntry key (modify fun _ => value)
  | .update key f => updateEntry key (modifyGet fun old => (old, f old))

/-- To insert in place is to insert or to change nothing. -/
theorem on_insertEntry (key : String) (value : Value) (constant : Bool) (g : Globals) :
    (insertEntry key value constant).on g =
      InPlace.settled g (((), ·) <$> g.insert key value constant) := by
  simp only [insertEntry, Globals.insert]
  by_cases hkey : key.isEmpty = true
  · simp [hkey]
  · by_cases hdup : g.contains key = true <;> simp [hkey, hdup]

/-- What code makes of a variable is what a function makes of it, and its answer is about the value
before. -/
theorem on_updateEntry (key : String) (f : StateM Value α) (g : Globals) :
    (updateEntry key f).on g =
      ((fun old => (f.run old).1) <$> (g.perform (.update key fun old => (f.run old).2)).1,
        (g.perform (.update key fun old => (f.run old).2)).2) := by
  rw [Globals.perform_update, updateEntry]
  simp only [InPlace.on_bind, InPlace.on_get, InPlace.on_ofExcept]
  cases he : g.entry key with
  | error error => rfl
  | ok e =>
    dsimp only
    rw [Globals.update_of_ok he]
    by_cases hconstant : e.constant = true
    · rw [if_pos hconstant, if_pos hconstant]
      rfl
    · by_cases hkind : e.value.kind ≠ .null ∧ (f.run e.value).2.kind ≠ e.value.kind
      · rw [if_neg hconstant, if_neg hconstant, if_pos hkind, if_pos hkind]
        rfl
      · rw [if_neg hconstant, if_neg hconstant, if_neg hkind, if_neg hkind]
        rfl

/-- The code of a call comes to the call. -/
theorem on_tableCode (c : Globals.Call) (g : Globals) : (tableCode c).on g = g.perform c := by
  cases c with
  | insert key value constant =>
    refine (on_insertEntry key value constant g).trans ?_
    rw [Globals.perform]
    cases g.insert key value constant <;> rfl
  | set key value =>
    exact (on_updateEntry key (modify fun _ => value) g).trans
      (Globals.perform_set g key value).symm
  | update key f =>
    refine (on_updateEntry key (modifyGet fun old => (old, f old)) g).trans ?_
    exact Prod.ext (id_map _) rfl
  | isConstant _ | value _ | get _ _ => exact InPlace.on_ofExcept ..
  | contains _ | keys | size => rfl

end Machine

end VertexPrograms
