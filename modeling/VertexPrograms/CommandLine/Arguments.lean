import VertexPrograms.Config.Environment
import VertexPrograms.Decimal.Reading
import VertexPrograms.Environment.Basic
import VertexPrograms.Synthetic.Shape

/-!
# Arguments of the command line

Options have long names, and a value that follows as a word of its own or behind an equals sign. No
option is given twice, and a word that looks like an option is no value. Words are read from left to
right, and the first that is at fault, or asks for help or for the version, ends the reading.
-/

namespace VertexPrograms.CommandLine

/-- The bundled programs. -/
inductive Algorithm where
  | pagerank
  | components
  deriving DecidableEq, Repr

/-- The algorithm with the given name, spelled exactly. -/
def Algorithm.ofName? : String → Option Algorithm
  | "pagerank" => some pagerank
  | "components" => some components
  | _ => none

/-- What the command line asks for. -/
structure Arguments where
  shape : Shape := .ring
  size : Nat := 1000
  algorithm : Algorithm := .pagerank
  /-- The path of a configuration document. -/
  document : Option String := none
  workers : Option Nat := none
  policy : Option Policy := none
  consistency : Option Consistency := none
  interval : Nat := 0
  tolerance : Float := 1e-6

/-- The options that take a value. -/
inductive Parameter where
  | graph
  | size
  | algorithm
  | config
  | workers
  | scheduler
  | consistency
  | syncInterval
  | tolerance
  deriving DecidableEq, Repr

/-- The option with the given name, spelled exactly. -/
def Parameter.ofName? : String → Option Parameter
  | "graph" => some graph
  | "size" => some size
  | "algorithm" => some algorithm
  | "config" => some config
  | "workers" => some workers
  | "scheduler" => some scheduler
  | "consistency" => some consistency
  | "sync-interval" => some syncInterval
  | "tolerance" => some tolerance
  | _ => none

/-- Reads a size, which fits in 32 bits. -/
def readSize? (cs : List Char) : Option Nat :=
  ((Text.readInt? cs).filter fun n => 0 ≤ n ∧ n < 0x100000000).map Int.toNat

/-- Reads a path, which is not empty. -/
def readPath? (text : String) : Option String := if text.isEmpty then none else some text

/-- The arguments with a value for an option, if it is one the option can have. -/
def Arguments.set? (a : Arguments) (p : Parameter) (text : String) : Option Arguments :=
  match p with
  | .graph => (Shape.ofName? text).map fun shape => { a with shape }
  | .size => (readSize? text.toList).map fun size => { a with size }
  | .algorithm => (Algorithm.ofName? text).map fun algorithm => { a with algorithm }
  | .config => (readPath? text).map fun path => { a with document := some path }
  | .workers => (Text.readWord? text.toList).map fun n => { a with workers := some n }
  | .scheduler => (Policy.parse text).toOption.map fun policy => { a with policy := some policy }
  | .consistency =>
    (Consistency.parse text).toOption.map fun level => { a with consistency := some level }
  | .syncInterval => (Text.readWord? text.toList).map fun interval => { a with interval }
  | .tolerance => (Decimal.read? text.toList).map fun tolerance => { a with tolerance }

/-- Why arguments are not acted upon. -/
inductive Stop where
  | help
  | version
  /-- A word at fault. -/
  | usage
  deriving DecidableEq, Repr

/-- What a word looks like. -/
inductive Word where
  /-- The mark behind which no word is an option. -/
  | separator
  /-- A long name, with the value behind the equals sign if there is one. -/
  | long (name : String) (value : Option String)
  /-- One dash and letters. -/
  | short (letters : List Char)
  /-- Anything else. -/
  | plain
  deriving DecidableEq, Repr

/-- Looks at a word. A single dash is plain. -/
def Word.ofString (word : String) : Word :=
  match word.toList with
  | ['-', '-'] => .separator
  | '-' :: '-' :: cs =>
    .long (String.ofList (cs.takeWhile (· != '='))) <|
      match cs.dropWhile (· != '=') with
      | [] => none
      | _ :: value => some (String.ofList value)
  | '-' :: c :: cs => .short (c :: cs)
  | _ => .plain

/-- What one dash and letters ask for; only the first letter is looked at. -/
def Stop.ofLetters : List Char → Stop
  | 'h' :: _ => .help
  | 'V' :: _ => .version
  | _ => .usage

/-- What a long name without a value asks for, if it is no option with a value. -/
def Stop.ofName (name : String) (value : Option String) : Stop :=
  match name, value with
  | "help", none => .help
  | "version", none => .version
  | _, _ => .usage

/-- Arguments, and the options that have been given. -/
abbrev Given := List Parameter × Arguments

/-- Takes a value for an option that has not been given before. -/
def Given.set (given : Given) (p : Parameter) (text : String) : Except Stop Given :=
  if p ∈ given.1 then .error .usage
  else
    match given.2.set? p text with
    | some a => .ok (p :: given.1, a)
    | none => .error .usage

/-- Reads words from left to right. -/
def Given.read (given : Given) : List String → Except Stop Given
  | [] => .ok given
  | word :: rest =>
    match Word.ofString word with
    | .separator => if rest.isEmpty then .ok given else .error .usage
    | .plain => .error .usage
    | .short letters => .error (.ofLetters letters)
    | .long name value =>
      match Parameter.ofName? name, value, rest with
      | none, value, _ => .error (.ofName name value)
      | some p, some text, rest => (given.set p text).bind fun given => given.read rest
      | some _, none, [] => .error .usage
      | some p, none, text :: rest =>
        if Word.ofString text = .plain then (given.set p text).bind fun given => given.read rest
        else .error .usage

/-- The variable that names a configuration document when no option does. -/
def documentVariable : String := "TESSERA_CONFIG"

/-- The arguments that words and the environment make. -/
def Arguments.ofWords (env : Environment) (words : List String) : Except Stop Arguments := do
  let (given, a) ← Given.read ([], {}) words
  match if Parameter.config ∈ given then none else env.valueOf? documentVariable with
  | none => return a
  | some path =>
    match a.set? .config path with
    | some a => return a
    | none => .error .usage

end VertexPrograms.CommandLine
