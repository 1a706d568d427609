import VertexPrograms.Aggregation.Summaries
import VertexPrograms.Script.Datum

/-!
# Described aggregators

Aggregators put together from descriptions: sums and counts over the vertices, and folds of integers
over vertices and edges whose total is checked, noted in a text, or stored.
-/

namespace VertexPrograms.Script

/-- The number a sum takes from a vertex. -/
inductive SumTerm where
  | data
  | constant (k : Float)
  /-- The data times a factor, rounded down. -/
  | floor (factor : Float)

/-- The number of a term at a vertex. -/
def SumTerm.apply {V : Type} [Datum V] (term : SumTerm) (v : V) : Float :=
  match term with
  | data => Datum.toFloat v
  | constant k => k
  | floor factor => (Datum.toFloat v * factor).floor

/-- The integer a fold takes from a vertex. -/
inductive FoldTerm where
  /-- The data, cut to a whole number. -/
  | data
  | id
  | one
  | none

/-- The edges a fold takes the data of. -/
inductive FoldEdges where
  | none
  | all
  /-- Those that lead to a larger identifier. -/
  | ascending

/-- How a fold combines two integers. -/
inductive FoldOperation where
  /-- The sum, which wraps around. -/
  | sum
  | least
  | greatest

/-- A fold, and what is done with its total, in the order of the fields. -/
structure Fold where
  term : FoldTerm
  edges : FoldEdges := .none
  operation : FoldOperation := .sum
  /-- The vertex whose term panics. -/
  panicAt : Option VertexId := Option.none
  /-- The causes for which it fails. -/
  bail : Option (List String) := Option.none
  /-- The text with which it panics. -/
  panic : Option String := Option.none
  /-- The largest total it accepts. -/
  limit : Option Int64 := Option.none
  /-- A text that is extended by a tag and the total. -/
  trace : Option (String × String) := Option.none
  /-- A global that is set to the total. -/
  store : Option String := Option.none

namespace Fold

variable {V : Type}

/-- Combines two totals, each of which may be missing. -/
def combine (operation : FoldOperation) : Option Int64 → Option Int64 → Option Int64
  | some a, some b =>
    some (match operation with
      | .sum => a + b
      | .least => if b < a then b else a
      | .greatest => if a < b then b else a)
  | some a, Option.none => some a
  | Option.none, b => b

/-- The part of a vertex. -/
def mapVertex [Datum V] (fold : Fold) (id : VertexId) (v : V) : Except Fault (Option Int64) :=
  if fold.panicAt = some id then .error (.panicked s!"map {id}")
  else .ok (match fold.term with
    | .data => some (Datum.toFloat v).toInt64
    | .id => some (Int64.ofNat id.toNat)
    | .one => some 1
    | .none => Option.none)

/-- The part of an edge. -/
def mapEdge (fold : Fold) (source target : VertexId) (n : Int64) :
    Except Fault (Option (Option Int64)) :=
  .ok (match fold.edges with
    | .none => Option.none
    | .all => some (some n)
    | .ascending => if source < target then some (some n) else Option.none)

/-- The text of a total. -/
def totalText : Option Int64 → String
  | some n => toString n
  | Option.none => "none"

/-- Extends a text; other values stay as they are. -/
def extend (suffix : String) : Value → Value
  | .text t => .text (t ++ suffix)
  | v => v

/-- Makes a call, and goes on unless it is refused. -/
def attempt (call : Globals.Call) (next : Globals.Routine (Except Fault Unit)) :
    Globals.Routine (Except Fault Unit) :=
  .call call fun
    | .ok _ => next
    | .error e => .done (.error (.ofError e))

/-- Stores the total, if it is to be stored. -/
def finalizeStore (fold : Fold) (total : Option Int64) : Globals.Routine (Except Fault Unit) :=
  match fold.store with
  | Option.none => .done (.ok ())
  | some key => attempt (.set key (total.elim .null .integer)) (.done (.ok ()))

/-- Notes the total, if it is to be noted, and stores it. -/
def finalizeTrace (fold : Fold) (total : Option Int64) : Globals.Routine (Except Fault Unit) :=
  match fold.trace with
  | Option.none => fold.finalizeStore total
  | some (key, tag) =>
    attempt (.update key (extend s!"{tag}={totalText total};")) (fold.finalizeStore total)

/-- Fails if the total is too large. -/
def overLimit? (fold : Fold) (total : Option Int64) : Option Fault :=
  match fold.limit, total with
  | some n, some t => if n < t then some (.reported [s!"total {t} over {n}"]) else Option.none
  | _, _ => Option.none

/-- What is done with the total. -/
def finalize (fold : Fold) (total : Option Int64) : Globals.Routine (Except Fault Unit) :=
  match fold.bail, fold.panic, fold.overLimit? total with
  | some causes, _, _ => .done (.error (.reported causes))
  | _, some text, _ => .done (.error (.panicked text))
  | _, _, some fault => .done (.error fault)
  | _, _, _ => fold.finalizeTrace total

/-- The aggregator of a fold. -/
def aggregator [Datum V] (fold : Fold) : Aggregator V Int64 (Option Int64) where
  identity := Option.none
  mapVertex := fold.mapVertex
  mapEdge := fold.mapEdge
  combine := combine fold.operation
  finalize := fold.finalize

end Fold

/-- A described aggregator. -/
inductive Summary where
  | sum (term : SumTerm) (target : String)
  /-- The number of vertices with data above a bound. -/
  | count (bound : Float) (target : String)
  | fold (fold : Fold)

/-- The pass of a described aggregator. -/
def Summary.pass {V : Type} [Datum V] : Summary → Pass V Int64
  | sum term target => (vertexSum target term.apply).pass
  | count bound target => (vertexCount target fun v => decide (bound < Datum.toFloat v)).pass
  | fold f => f.aggregator.pass

end VertexPrograms.Script
