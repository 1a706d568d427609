import VertexPrograms.Aggregation.Summaries
import VertexPrograms.Engine.Run
import VertexPrograms.Engine.Setup
import VertexPrograms.Program.Components
import VertexPrograms.Program.PageRank
import VertexPrograms.Synthetic.Shape

/-!
# Experiments

A bundled program is run on every vertex of a synthetic graph until nothing is left to do, and the
result is summed up by an aggregator, which may also run every so many updates.
-/

namespace VertexPrograms

/-- What an experiment is run on. -/
structure Setting where
  shape : Shape := .ring
  size : Nat := 1000
  /-- Updates from one pass of the aggregator to the next; 0 for a pass at the end only. -/
  interval : Nat := 0

/-- What an experiment finds out. -/
inductive Finding where
  /-- The sum of all ranks. -/
  | ranks (sum : Float)
  /-- The number of components, and the number of vertices in the component of vertex 0. -/
  | components (count : Nat) (first : Int64)

/-- The report of an experiment. -/
structure Summary where
  algorithm : String
  graph : Stats
  updates : Nat
  failures : List String
  finding : Finding
  metrics : Metrics

/-- An engine for one program that needs no memory, on a graph without data on its edges. -/
abbrev SoleEngine (V : Type) := Engine V Unit Unit Unit

namespace Setting

variable {V : Type}

/-- The engine after an operation that is not refused. -/
def perform (op : Engine.Operation V Unit Unit Unit Unit) (e : SoleEngine V) :
    Except Error (SoleEngine V) :=
  match op e with
  | (.ok (), e) => .ok e
  | (.error error, _) => .error error

/-- The answer to a question. -/
def ask {α : Type} (op : Engine.Operation V Unit Unit Unit α) (e : SoleEngine V) : Except Error α :=
  (op e).1

/-- The number of vertices. -/
def vertexCount (s : Setting) : Nat := s.shape.vertexCount s.size

/-- Adds the vertices, with data from their numbers, and then the edges. -/
def fill (s : Setting) (data : Nat → V) (g : Store V Unit) : Except Error (Store V Unit) := do
  let g ← (List.range s.vertexCount).foldlM
    (fun g (v : Nat) => do (·.2) <$> g.addVertex (← VertexId.ofRaw v) (data v)) g
  (s.shape.edges s.size).foldlM
    (fun g ((source, target) : Nat × Nat) => do
      (·.2) <$> g.addEdge (← VertexId.ofRaw source) (← VertexId.ofRaw target) ()) g

/-- Builds the graph. -/
def build (s : Setting) (data : Nat → V) (e : SoleEngine V) : Except Error (SoleEngine V) := do
  let e ← perform (Engine.resize s.vertexCount) e
  perform (Engine.Operation.build (s.fill data)) e

/-- Makes an engine ready to run a program on every vertex of the graph. -/
def prepare (s : Setting) (config : Config) (processors : Nat) (program : Program V Unit Unit Unit)
    (data : Nat → V) (key : String) (pass : Pass V Unit) (priority : Priority) :
    Except Error (SoleEngine V) := do
  unless Agenda.hasRoom config.policy (config.resolvedWorkers processors) do throw .capacity
  let e ← s.build data (Engine.new config processors (fun _ => program) ())
  let e ← perform (Engine.addAggregator key pass s.interval) e
  perform (Engine.scheduleAll () priority) e

/-- Runs an engine, and its aggregator once more. -/
def execute (host : Host) (steps : Nat) (key : String) (e : SoleEngine V) :
    Option (Except Error (SoleEngine V)) :=
  (Engine.start host steps e).map fun
    | (.ok (), e) => perform (Engine.aggregateNow key) e
    | (.error error, _) => .error error

/-- Sums up a run. -/
def summarize (algorithm : String) (finding : Finding) (e : SoleEngine V) :
    Except Error Summary := do
  let store ← ask Engine.graph e
  let failures ← ask Engine.lastFailures e
  return {
    algorithm, finding
    graph := store.stats
    updates := ← ask Engine.lastUpdateCount e
    failures := failures.map Failure.describe
    metrics := ← ask Engine.lastMetrics e }

/-! # Ranking -/

/-- An engine ready to rank the vertices. -/
def rankingEngine (s : Setting) (config : Config) (processors : Nat) (tolerance : Float) :
    Except Error (SoleEngine Float) :=
  s.prepare config processors (PageRank.program { tolerance })
    (fun _ => PageRank.initialRank s.vertexCount) "rank_sum" (vertexSum "rank_sum" id).pass
      (.ofFloat 1.0)

/-- The sum of the ranks after a run. -/
def rankSum (e : SoleEngine Float) : Except Error Finding := do
  match ← ask (Engine.getGlobal "rank_sum" (some .float)) e with
  | .float sum => .ok (.ranks sum)
  | v => .error (.typeMismatch "rank_sum" Kind.float.name v.kind.name)

/-- Ranks the vertices; no answer if that takes more than the given number of updates. -/
def rank (s : Setting) (config : Config) (host : Host) (steps : Nat) (tolerance : Float) :
    Option (Except Error Summary) :=
  match s.rankingEngine config host.processors tolerance with
  | .error e => some (.error e)
  | .ok e => (execute host steps "rank_sum" e).map fun result => do
    let e ← result
    summarize "pagerank" (← rankSum e) e

/-! # Components -/

/-- An engine ready to find the components. -/
def componentsEngine (s : Setting) (config : Config) (processors : Nat) :
    Except Error (SoleEngine UInt32) :=
  s.prepare config processors Components.program UInt32.ofNat "labelled_zero"
    (VertexPrograms.vertexCount "in_first_component" (· == 0)).pass .zero

/-- The number of vertices that carry their own number as a label. -/
def countOwnLabels (store : Store UInt32 Unit) : Except Error Nat :=
  store.topology.ids.toList.foldlM
    (fun n id => (fun label => if label = id then n + 1 else n) <$> store.vertexData id) 0

/-- The components after a run. -/
def componentsFound (e : SoleEngine UInt32) : Except Error Finding := do
  let count ← countOwnLabels (← ask Engine.graph e)
  match ← ask (Engine.getGlobal "in_first_component" (some .integer)) e with
  | .integer first => .ok (.components count first)
  | v => .error (.typeMismatch "in_first_component" Kind.integer.name v.kind.name)

/-- Finds the components; no answer if that takes more than the given number of updates. -/
def findComponents (s : Setting) (config : Config) (host : Host) (steps : Nat) :
    Option (Except Error Summary) :=
  match s.componentsEngine config host.processors with
  | .error e => some (.error e)
  | .ok e => (execute host steps "labelled_zero" e).map fun result => do
    let e ← result
    summarize "components" (← componentsFound e) e

end Setting

end VertexPrograms
