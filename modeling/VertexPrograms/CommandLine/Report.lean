import VertexPrograms.Synthetic.Experiment
import VertexPrograms.Value.Encoding
import VertexPrograms.Value.Printing

/-!
# Reports

The report of an experiment as a document. Of the metrics it tells the counts.
-/

namespace VertexPrograms.CommandLine

/-- A count as a document. -/
def count (n : Nat) : Json := .integer n

/-- Counts by name as a document. -/
def counts (c : Counter) : Json := .object (c.toList.map fun (name, n) => (name, count n))

/-- The description of a graph. -/
def graphReport (s : Stats) : Json :=
  .object
    [("vertex_count", count s.vertexCount), ("edge_count", count s.edgeCount),
      ("max_degree", count s.maxDegree), ("isolated_vertices", count s.isolated),
      ("frozen", .bool s.frozen)]

/-- The finding of an experiment. -/
def findingReport : Finding → Json
  | .ranks sum => .object [("rank_sum", .ofFloat sum)]
  | .components number first =>
    .object [("components", count number), ("in_first_component", .integer first.toInt)]

/-- The counts of a run. -/
def metricsReport (m : Metrics) : Json :=
  .object
    [("updates_executed", counts m.updates), ("aggregator_runs", counts m.passes),
      ("failures", count m.failures), ("lock_contention", count m.contention),
      ("workers", count m.workers), ("last_update_count", count m.lastUpdateCount)]

/-- The report of an experiment that took the given number of milliseconds. -/
def report (s : Summary) (milliseconds : Nat) : Json :=
  .object
    [("algorithm", .string s.algorithm), ("graph", graphReport s.graph),
      ("elapsed_ms", count milliseconds), ("updates", count s.updates),
      ("failures", .array (s.failures.map .string)), ("result", findingReport s.finding),
      ("metrics", metricsReport s.metrics)]

end VertexPrograms.CommandLine
