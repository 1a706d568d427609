import Std.Data.ExtTreeMap
import VertexPrograms.Error
import VertexPrograms.Value.Basic

/-!
# The table of globals

Named values shared by every update and every pass. A key is registered once, as a constant or as a
variable, and stays registered. A variable may be null, and then take a value of any kind; from its
first value that is not null it keeps that value's kind. An operation that is refused leaves the
table as it was.
-/

namespace VertexPrograms

/-- One entry of the table. -/
structure Global where
  value : Value
  constant : Bool

/-- The entries by key. -/
structure Globals where
  entries : Std.ExtTreeMap String Global compare := ∅

namespace Globals

/-- The entry under a key. -/
def entry (g : Globals) (key : String) : Except Error Global :=
  match g.entries[key]? with
  | some e => .ok e
  | none => .error (.unknownGlobal key)

/-- Whether a key is registered. -/
def contains (g : Globals) (key : String) : Bool := g.entries.contains key

/-- The registered keys, in order. -/
def keys (g : Globals) : List String := g.entries.keys

/-- The number of registered keys. -/
def size (g : Globals) : Nat := g.entries.size

/-- Whether the entry under a key is a constant. -/
def isConstant (g : Globals) (key : String) : Except Error Bool := (·.constant) <$> g.entry key

/-- The value under a key. -/
def value (g : Globals) (key : String) : Except Error Value := (·.value) <$> g.entry key

/-- The value under a key, if it is of the kind wanted. -/
def get (g : Globals) (key : String) (wanted : Option Kind) : Except Error Value :=
  match g.entry key with
  | .error e => .error e
  | .ok e =>
    match wanted with
    | none => .ok e.value
    | some k =>
      if e.value.kind = k then .ok e.value
      else .error (.typeMismatch key k.name e.value.kind.name)

/-- Registers a key, which must be new and not empty. -/
def insert (g : Globals) (key : String) (value : Value) (constant : Bool) : Except Error Globals :=
  if key.isEmpty then .error (.invalidArgument "global key must not be empty")
  else if g.contains key then .error (.duplicateGlobal key)
  else .ok { g with entries := g.entries.insert key ⟨value, constant⟩ }

/-- Replaces the value of a variable by its image. The image of a value that is not null must be of
the same kind. -/
def update (g : Globals) (key : String) (f : Value → Value) : Except Error Globals :=
  match g.entry key with
  | .error e => .error e
  | .ok e =>
    if e.constant then .error (.constantGlobal key)
    else
      let new := f e.value
      if e.value.kind ≠ .null ∧ new.kind ≠ e.value.kind then
        .error (.typeMismatch key e.value.kind.name new.kind.name)
      else .ok { g with entries := g.entries.insert key { e with value := new } }

/-- Gives a variable a new value. -/
def set (g : Globals) (key : String) (value : Value) : Except Error Globals :=
  g.update key fun _ => value

end Globals

end VertexPrograms
