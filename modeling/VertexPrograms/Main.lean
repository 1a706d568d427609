import VertexPrograms.CommandLine.Report
import VertexPrograms.CommandLine.Run
import VertexPrograms.Environment.File

/-!
# The program

Runs a bundled program on a synthetic graph and prints a report. What it needs from outside is
fetched here: the words of the command line, variables, the file of default variables and the
configuration document.
-/

open VertexPrograms

/-- How the program is called. -/
def usage : String := "Usage: vertex-programs [OPTIONS]

Run a vertex program over a synthetic graph.

Options:
  --graph <ring|grid>                 graph shape [default: ring]
  --size <N>                          ring length or grid side [default: 1000]
  --algorithm <pagerank|components>   bundled program [default: pagerank]
  --config <PATH>                     TOML configuration [env: TESSERA_CONFIG]
  --workers <N>                       worker threads
  --scheduler <POLICY>                fifo, priority or round_robin
  --consistency <LEVEL>               vertex, edge or full
  --sync-interval <N>                 updates between passes, 0 for the end only [default: 0]
  --tolerance <X>                     convergence tolerance [default: 0.000001]
  -h, --help                          print help
  -V, --version                       print version"

/-- No run takes this many updates. -/
def updateLimit : Nat := 0x4000000000000000

/-- The fault of a file that could not be read. -/
def faultOf (e : IO.Error) : CommandLine.FileFault :=
  match e with
  | .noFileOrDirectory .. => .notFound
  | .inappropriateType _ code _ => if code = 21 then .isDirectory else .notDirectory
  | .invalidArgument _ code text => if code = 36 then .nameTooLong else .other text
  | e => .other e.toString

/-- Reads a text. -/
def readText (path : String) : IO (Except CommandLine.FileFault String) := do
  try
    return .ok (← IO.FS.readFile path)
  catch e => return .error (faultOf e)

/-- The definitions in the first file of variables, looking from the present directory upwards. -/
def defaultVariables : IO (List Environment.Definition) := do
  for depth in List.range 64 do
    match ← readText (String.join (List.replicate depth "../") ++ ".env") with
    | .ok text => return Environment.ofFile text
    | .error _ => pure ()
  return []

/-- The variables that have a value, of those that can matter. -/
def presentVariables (definitions : List Environment.Definition) : IO Environment := do
  let settings := Config.settingVariables.map (·.1)
  let names := CommandLine.documentVariable :: settings ++ Environment.mentioned definitions
  let mut env : Environment := []
  for name in names do
    if let some value ← IO.getEnv name then
      env := (env.define name value).getD env
  return env

/-- Runs the program on the words of the command line. -/
def main (words : List String) : IO UInt32 := do
  let definitions ← defaultVariables
  let some env := (← presentVariables definitions).withDefaults definitions
    | IO.eprintln "a value in the file of variables holds a zero character"
      return 101
  match CommandLine.Arguments.ofWords env words with
  | .error .help =>
    IO.println usage
    return 0
  | .error .version =>
    IO.println "vertex-programs 0.1.0"
    return 0
  | .error .usage =>
    IO.eprintln usage
    return 2
  | .ok arguments =>
    let document ← arguments.document.mapM readText
    let start ← IO.monoMsNow
    match arguments.run env document {} updateLimit with
    | some (.ok summary) =>
      let finish ← IO.monoMsNow
      IO.println ((CommandLine.report summary (finish - start)).print 0)
      return 0
    | some (.error refusal) =>
      IO.eprintln s!"Error: {refusal.message}"
      return refusal.exitCode.toUInt32
    | none =>
      IO.eprintln "Error: the run does not end"
      return 1
