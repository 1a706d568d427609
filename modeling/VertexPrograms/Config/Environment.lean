import VertexPrograms.Config.Options

/-!
# Settings from the environment

Five variables name settings. A variable that is absent or empty sets nothing, and the first bad one
in the order below decides the error.
-/

namespace VertexPrograms.Config

/-- The variables, in the order in which they are read, with the option each of them stands for. -/
def settingVariables : List (String × String) :=
  [("TESSERA_WORKER_THREADS", "ncpus"), ("TESSERA_SCHEDULER", "scheduler"),
    ("TESSERA_CONSISTENCY", "scope"), ("TESSERA_ABORT_ON_ERROR", "abort_on_error"),
    ("TESSERA_SYNC_THREADS", "sync_threads")]

/-- Makes the setting of one variable, if it has a value. -/
def applyVariable (lookup : String → Option String) (c : Config) (entry : String × String) :
    Except Error Config :=
  match lookup entry.1 with
  | none | some "" => .ok c
  | some value => c.apply entry.2 value

/-- The configuration the environment describes. -/
def ofEnvironment (lookup : String → Option String) : Except Error Config :=
  settingVariables.foldlM (applyVariable lookup) {}

end VertexPrograms.Config
