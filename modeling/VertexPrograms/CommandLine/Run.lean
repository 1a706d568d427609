import VertexPrograms.CommandLine.Arguments
import VertexPrograms.Config.Document
import VertexPrograms.Synthetic.Experiment

/-!
# Running what the command line asks for

The configuration comes from a document if one is named, else from the environment; arguments
override it. Then the experiment is run.
-/

namespace VertexPrograms.CommandLine

/-- Why a file cannot be read. -/
inductive FileFault where
  | notFound
  | notDirectory
  | isDirectory
  | nameTooLong
  /-- Another reason, with its text. -/
  | other (text : String)
  deriving DecidableEq, Repr

/-- The text of a file's fault. -/
def FileFault.message : FileFault → String
  | notFound => "No such file or directory (os error 2)"
  | notDirectory => "Not a directory (os error 20)"
  | isDirectory => "Is a directory (os error 21)"
  | nameTooLong => "File name too long (os error 36)"
  | other text => text

/-- Why nothing is reported. -/
inductive Refusal where
  | file (fault : FileFault)
  | noWorkers
  | error (e : Error)
  deriving DecidableEq, Repr

/-- The exit code of a program that is refused: lack of memory breaks it off, other causes end it in
order. -/
def Refusal.exitCode : Refusal → Nat
  | error .capacity => 101
  | _ => 1

/-- The text of a refusal. -/
def Refusal.message : Refusal → String
  | file fault => fault.message
  | noWorkers => "--workers must be greater than 0"
  | error e => e.message

namespace Arguments

/-- The configuration before arguments override it; `read` is what the document holds, if one is
named. -/
def baseConfig (env : Environment) (read : Option (Except FileFault String)) :
    Except Refusal Config :=
  match read with
  | some (.error fault) => .error (.file fault)
  | some (.ok text) => (Config.ofDocument text).mapError .error
  | none => (Config.ofEnvironment fun name => env.valueOf? name).mapError .error

/-- The configuration with what arguments override. -/
def override (a : Arguments) (c : Config) : Except Refusal Config :=
  if a.workers = some 0 then .error .noWorkers
  else
    .ok { c with
      workerThreads := a.workers.getD c.workerThreads
      policy := a.policy.getD c.policy
      consistency := a.consistency.getD c.consistency }

/-- What the experiment is run on. -/
def setting (a : Arguments) : Setting :=
  { shape := a.shape, size := a.size, interval := a.interval }

/-- Runs the experiment with a configuration. -/
def experiment (a : Arguments) (host : Host) (steps : Nat) (c : Config) :
    Option (Except Error Summary) :=
  match a.algorithm with
  | .pagerank => a.setting.rank c host steps a.tolerance
  | .components => a.setting.findComponents c host steps

/-- Does what the arguments ask for. There is no answer if the run takes more than the given number
of updates. -/
def run (a : Arguments) (env : Environment) (read : Option (Except FileFault String)) (host : Host)
    (steps : Nat) : Option (Except Refusal Summary) :=
  match baseConfig env read >>= a.override with
  | .error refusal => some (.error refusal)
  | .ok c => (a.experiment host steps c).map fun result => result.mapError .error

end Arguments

end VertexPrograms.CommandLine
