import VertexPrograms.Config.Basic
import VertexPrograms.Text.Numeral

/-!
# Option strings

Settings written as words `key=value`, each behind any number of dashes. A later setting overrides
an earlier one, and the first word that is no setting decides the error.
-/

namespace VertexPrograms.Config

/-- The settings that options make. -/
inductive Setting where
  | workers
  | policy
  | consistency
  | abort
  | sync
  deriving DecidableEq, Repr

/-- The setting a key stands for. -/
def Setting.ofKey? : String → Option Setting
  | "ncpus" | "workers" | "worker_threads" => some workers
  | "scheduler" => some policy
  | "scope" | "consistency" => some consistency
  | "abort_on_error" => some abort
  | "sync_threads" => some sync
  | _ => none

/-- The value is not one the key can be given. -/
def invalidValue (key value : String) : Error :=
  .invalidArgument s!"invalid value for {key}: {value}"

/-- Makes one setting from its key and the text of its value. -/
def apply (c : Config) (key value : String) : Except Error Config :=
  match Setting.ofKey? key with
  | none => .error (.invalidArgument s!"unknown option: {key}")
  | some .workers =>
    match (Text.readWord? value.toList).filter (0 < ·) with
    | some n => .ok { c with workerThreads := n }
    | none => .error (invalidValue key value)
  | some .policy => (fun policy => { c with policy }) <$> Policy.parse value
  | some .consistency => (fun consistency => { c with consistency }) <$> Consistency.parse value
  | some .abort =>
    match value with
    | "true" => .ok { c with abortOnError := true }
    | "false" => .ok { c with abortOnError := false }
    | _ => .error (invalidValue key value)
  | some .sync =>
    match Text.readWord? value.toList with
    | some n => .ok { c with syncThreads := n }
    | none => .error (invalidValue key value)

/-- Splits a word at its first equals sign. -/
def splitAssignment? (word : List Char) : Option (String × String) :=
  match word.dropWhile (· != '=') with
  | [] => none
  | _ :: value => some (String.ofList (word.takeWhile (· != '=')), String.ofList value)

/-- Makes the setting one word asks for. -/
def applyWord (c : Config) (word : List Char) : Except Error Config :=
  match splitAssignment? (word.dropWhile (· == '-')) with
  | some (key, value) => c.apply key value
  | none => .error (.invalidArgument s!"expected key=value, got {String.ofList word}")

/-- The configuration an option string describes, starting from the defaults. -/
def ofOptions (text : String) : Except Error Config :=
  (Text.words text.toList).foldlM applyWord {}

end VertexPrograms.Config
