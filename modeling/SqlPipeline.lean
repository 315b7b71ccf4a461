import SqlPipeline.Build.Command
import SqlPipeline.Build.Compilation
import SqlPipeline.Build.Materialization
import SqlPipeline.CommandLine.Arguments
import SqlPipeline.CommandLine.Report
import SqlPipeline.CommandLine.Session
import SqlPipeline.Digest.Sha256
import SqlPipeline.Files.Path
import SqlPipeline.Files.Tree
import SqlPipeline.Graph.Basic
import SqlPipeline.Graph.Cycle
import SqlPipeline.Graph.Order
import SqlPipeline.Graph.Walk
import SqlPipeline.Json.Parser
import SqlPipeline.Json.Printer
import SqlPipeline.Json.Record
import SqlPipeline.Json.Value
import SqlPipeline.Main
import SqlPipeline.Model.Call
import SqlPipeline.Model.Manifest
import SqlPipeline.Model.Project
import SqlPipeline.Model.Selector
import SqlPipeline.NameMap
import SqlPipeline.NameSet
import SqlPipeline.Number.Binary64
import SqlPipeline.Number.Decimal
import SqlPipeline.Proofs.Build.Compilation
import SqlPipeline.Proofs.Graph.Contraction
import SqlPipeline.Proofs.Graph.Cycle
import SqlPipeline.Proofs.Graph.Order
import SqlPipeline.Proofs.Graph.Walk
import SqlPipeline.Proofs.Run.Accounting
import SqlPipeline.Proofs.Run.Completion
import SqlPipeline.Proofs.Run.Liveness
import SqlPipeline.Proofs.Run.Order
import SqlPipeline.Proofs.Run.Step
import SqlPipeline.Proofs.Run.Verdict
import SqlPipeline.Proofs.Schedule.Bookkeeping
import SqlPipeline.Proofs.Schedule.Effect
import SqlPipeline.Proofs.Schedule.Liveness
import SqlPipeline.Proofs.Schedule.Propagation
import SqlPipeline.Proofs.Schedule.Skipping
import SqlPipeline.Registry
import SqlPipeline.Relation
import SqlPipeline.Results.Artifact
import SqlPipeline.Results.Email
import SqlPipeline.Results.Execution
import SqlPipeline.Results.Writer
import SqlPipeline.Run.Executor
import SqlPipeline.Run.Progress
import SqlPipeline.Run.Task
import SqlPipeline.Schedule.Node
import SqlPipeline.Schedule.Queue
import SqlPipeline.Semantic.Dimension
import SqlPipeline.Semantic.Metric
import SqlPipeline.Settings
import SqlPipeline.Template.Builtin
import SqlPipeline.Template.Context
import SqlPipeline.Template.Eval
import SqlPipeline.Template.Expr
import SqlPipeline.Template.Fault
import SqlPipeline.Template.Filter
import SqlPipeline.Template.Operator
import SqlPipeline.Template.Parser
import SqlPipeline.Template.Render
import SqlPipeline.Template.Scope
import SqlPipeline.Template.Token
import SqlPipeline.Template.Value
import SqlPipeline.Text.Blank
import SqlPipeline.Text.Bounds
import SqlPipeline.Text.Case
import SqlPipeline.Text.Encoding
import SqlPipeline.Text.Hex
import SqlPipeline.Text.Quoted
import SqlPipeline.Text.Search
import SqlPipeline.Text.Word
import SqlPipeline.Time.Instant
import SqlPipeline.Toml.Moment
import SqlPipeline.Toml.Parser
import SqlPipeline.Toml.Printer
import SqlPipeline.Toml.Section
import SqlPipeline.Toml.Value
import SqlPipeline.Proofs.Build.Order
import SqlPipeline.Proofs.Build.Locality
import SqlPipeline.Proofs.Model.Block
import SqlPipeline.Proofs.Model.Comment
import SqlPipeline.Proofs.Model.Page
import SqlPipeline.Proofs.Template.Token
import SqlPipeline.Proofs.Template.Eval
import SqlPipeline.Proofs.Build.Page
import SqlPipeline.Proofs.Run.FailFast
import SqlPipeline.Proofs.Model.Validation
import SqlPipeline.Proofs.Files.Discovery
import SqlPipeline.Proofs.Model.Reloading
import SqlPipeline.Proofs.Run.Files
import SqlPipeline.Proofs.CommandLine.Confinement
import SqlPipeline.Proofs.CommandLine.Repetition
import SqlPipeline.Proofs.Schedule.Refusal
import SqlPipeline.Proofs.Run.Threads
import SqlPipeline.Proofs.Graph.LeastOrder
import SqlPipeline.Proofs.Run.Sequence
import SqlPipeline.Proofs.CommandLine.Listing
import SqlPipeline.Proofs.Model.Snapshot
import SqlPipeline.Proofs.Schedule.Departure
import SqlPipeline.Proofs.Graph.CanonicalOrder
import SqlPipeline.Proofs.Graph.Reachability
import SqlPipeline.Proofs.Model.Selection
import SqlPipeline.Proofs.Model.Finding
import SqlPipeline.Proofs.Model.PageCalls
import SqlPipeline.Proofs.Model.Reading
import SqlPipeline.Proofs.Template.Agreement
import SqlPipeline.Proofs.Template.Visibility
import SqlPipeline.Proofs.Text.Trimming
import SqlPipeline.Proofs.Build.Select
import SqlPipeline.Proofs.Build.Inlining
import SqlPipeline.Proofs.Build.SourceTables
import SqlPipeline.Proofs.Files.Listing
import SqlPipeline.Proofs.Model.Occurrence
import SqlPipeline.Proofs.Relation
import SqlPipeline.Proofs.Model.Neighbours
import SqlPipeline.Proofs.Settings.Reloading
import SqlPipeline.Proofs.Results.Archive
import SqlPipeline.Proofs.Text.Splitting
import SqlPipeline.Proofs.Registry
import SqlPipeline.Proofs.Dimension
import SqlPipeline.Proofs.Results.Email
import SqlPipeline.Proofs.Json.Omission
import SqlPipeline.Proofs.Json.Replacement
import SqlPipeline.Proofs.Model.Omission
import SqlPipeline.Proofs.Settings.Omission
import SqlPipeline.Proofs.Omission
import SqlPipeline.Proofs.Text.Encoding
import SqlPipeline.Proofs.Graph.Adjacency
import SqlPipeline.Proofs.Graph.Descent
import SqlPipeline.Proofs.Schedule.Lifecycle
