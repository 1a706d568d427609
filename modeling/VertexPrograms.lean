import VertexPrograms.Aggregation.Basic
import VertexPrograms.Aggregation.Registry
import VertexPrograms.Aggregation.Summaries
import VertexPrograms.CommandLine.Arguments
import VertexPrograms.CommandLine.Report
import VertexPrograms.CommandLine.Run
import VertexPrograms.Config.Basic
import VertexPrograms.Config.Document
import VertexPrograms.Config.Environment
import VertexPrograms.Config.Options
import VertexPrograms.Consistency
import VertexPrograms.Decimal.Nearest
import VertexPrograms.Decimal.Reading
import VertexPrograms.Decimal.Shortest
import VertexPrograms.Engine.Basic
import VertexPrograms.Engine.Failure
import VertexPrograms.Engine.Interruption
import VertexPrograms.Engine.Phase
import VertexPrograms.Engine.Run
import VertexPrograms.Engine.Setup
import VertexPrograms.Environment.Basic
import VertexPrograms.Environment.File
import VertexPrograms.Environment.Template
import VertexPrograms.Error
import VertexPrograms.Fault
import VertexPrograms.Globals.Basic
import VertexPrograms.Globals.Routine
import VertexPrograms.Graph.Description
import VertexPrograms.Graph.Store
import VertexPrograms.Graph.Topology
import VertexPrograms.Main
import VertexPrograms.Metrics
import VertexPrograms.Policy
import VertexPrograms.Priority
import VertexPrograms.Program.Components
import VertexPrograms.Program.PageRank
import VertexPrograms.Program.Update
import VertexPrograms.Scheduler.Agenda
import VertexPrograms.Scheduler.Basic
import VertexPrograms.Scheduler.Heap
import VertexPrograms.Scheduler.Queue
import VertexPrograms.Scope.Access
import VertexPrograms.Scope.Basic
import VertexPrograms.Scope.Locks
import VertexPrograms.Script.Datum
import VertexPrograms.Script.Evaluation
import VertexPrograms.Script.Instruction
import VertexPrograms.Script.Summary
import VertexPrograms.Synthetic.Experiment
import VertexPrograms.Synthetic.Shape
import VertexPrograms.Text.Alphanumeric
import VertexPrograms.Text.Blank
import VertexPrograms.Text.Numeral
import VertexPrograms.Toml.Document
import VertexPrograms.Toml.Item
import VertexPrograms.Toml.Layout
import VertexPrograms.Toml.Quoted
import VertexPrograms.Toml.Scalar
import VertexPrograms.Toml.Table
import VertexPrograms.Value.Basic
import VertexPrograms.Value.Encoding
import VertexPrograms.Value.Json
import VertexPrograms.Value.Printing
import VertexPrograms.VertexId
import VertexPrograms.Proofs.Scheduler.HeapOrder
import VertexPrograms.Proofs.Scheduler.Roster
import VertexPrograms.Proofs.Scheduler.AgendaContents
import VertexPrograms.Proofs.Scheduler.PendingOrder
import VertexPrograms.Proofs.Scheduler.Refinement
import VertexPrograms.Proofs.Graph.Representation
import VertexPrograms.Proofs.Scope.LockSets
import VertexPrograms.Proofs.Scope.Footprint
import VertexPrograms.Proofs.Program.Isolation
import VertexPrograms.Proofs.Program.Components
import VertexPrograms.Proofs.Scheduler.Table
import VertexPrograms.Proofs.Scheduler.HeapSize
import VertexPrograms.Proofs.Engine.Turns
import VertexPrograms.Proofs.Engine.Components
import VertexPrograms.Proofs.Scheduler.Quiescence
import VertexPrograms.Proofs.Graph.Outline
import VertexPrograms.Proofs.Graph.Editing
import VertexPrograms.Proofs.Graph.Loading
import VertexPrograms.Proofs.Engine.Calls
import VertexPrograms.Proofs.Engine.Team
import VertexPrograms.Proofs.Engine.Bounds
import VertexPrograms.Proofs.Engine.Lifecycle
import VertexPrograms.Proofs.Engine.Machine
import VertexPrograms.Proofs.Engine.Atomicity
import VertexPrograms.Proofs.Scope.Exclusion
import VertexPrograms.Proofs.Scope.Deadlock
import VertexPrograms.Proofs.Aggregation.Boundaries
import VertexPrograms.Proofs.Engine.Counters
import VertexPrograms.Proofs.Engine.Merging
import VertexPrograms.Proofs.Engine.Rounds
import VertexPrograms.Proofs.Engine.Balance
import VertexPrograms.Proofs.Engine.Firing
import VertexPrograms.Proofs.Engine.Ledger
import VertexPrograms.Proofs.Engine.Passes
import VertexPrograms.Proofs.Engine.Stages
import VertexPrograms.Proofs.Engine.Truncation
import VertexPrograms.Proofs.Scheduler.Likeness
import VertexPrograms.Proofs.Engine.Independence
import VertexPrograms.Proofs.Scope.Exactness
import VertexPrograms.Proofs.Engine.Confinement
import VertexPrograms.Proofs.Program.PageRank
import VertexPrograms.Proofs.Engine.Delivery
import VertexPrograms.Proofs.Engine.PageRank
import VertexPrograms.Proofs.Globals.Retention
import VertexPrograms.Proofs.Globals.Publishing
import VertexPrograms.Proofs.Engine.PassCounts
import VertexPrograms.Proofs.Engine.Report
import VertexPrograms.Proofs.Engine.Recording
import VertexPrograms.Proofs.Graph.Listing
import VertexPrograms.Proofs.Aggregation.Division
import VertexPrograms.Proofs.Aggregation.Summaries
import VertexPrograms.Proofs.Text.Words
import VertexPrograms.Proofs.Config.OptionLanguage
import VertexPrograms.Proofs.Engine.Watching
import VertexPrograms.Proofs.Synthetic.Shape
import VertexPrograms.Proofs.Synthetic.Building
import VertexPrograms.Proofs.Synthetic.Components
import VertexPrograms.Proofs.Engine.Interruption
