import VertexPrograms.Config.Basic
import VertexPrograms.Toml.Document

/-!
# Configuration documents

A TOML document with a key for each setting; a key that names none is passed over. The names of
policies and levels are spelled exactly. A name may also be written as the only key of a table, over
nothing.
-/

namespace VertexPrograms.Config

/-- Whether an item is an array or a table that holds nothing. -/
def isNothing : Toml.Item → Bool
  | .array [] | .table _ [] => true
  | _ => false

/-- The name an item stands for. -/
def nameOf? : Toml.Item → Option String
  | .string text => some text
  | .table _ [(key, item)] => if isNothing item then some key else none
  | _ => none

/-- The number an item stands for. -/
def countOf? : Toml.Item → Option Nat
  | .integer n => if 0 ≤ n then some n.toNat else none
  | _ => none

/-- The truth value an item stands for. -/
def flagOf? : Toml.Item → Option Bool
  | .boolean b => some b
  | _ => none

/-- Makes the setting of one entry. -/
def applyEntry? (c : Config) (entry : String × Toml.Item) : Option Config :=
  match entry.1 with
  | "worker_threads" => (countOf? entry.2).map fun n => { c with workerThreads := n }
  | "scheduler" => (nameOf? entry.2 >>= Policy.ofName?).map fun policy => { c with policy }
  | "consistency" =>
    (nameOf? entry.2 >>= Consistency.ofName?).map fun level => { c with consistency := level }
  | "abort_on_error" => (flagOf? entry.2).map fun b => { c with abortOnError := b }
  | "sync_threads" => (countOf? entry.2).map fun n => { c with syncThreads := n }
  | _ => some c

/-- The configuration a TOML document describes, starting from the defaults. -/
def ofDocument (text : String) : Except Error Config :=
  match Toml.parse? text >>= fun entries => entries.foldlM applyEntry? {} with
  | some c => .ok c
  | none => .error (.invalidArgument "config")

end VertexPrograms.Config
