import SqlPipeline.Json.Record
import SqlPipeline.Schedule.Node
import SqlPipeline.Time.Instant

/-!
# Results of a run

What became of each node of a run, with the arguments of the run and the time that it took.
-/

namespace SqlPipeline

/-- The arguments of a run. -/
structure RunArgs where
  command : String
  /-- The selectors of the nodes that take part. -/
  select : List String
  /-- The selectors of the nodes that do not take part. -/
  exclude : List String
  /-- How many nodes are built at once. -/
  threads : Nat
  failFast : Bool
  /-- The name of the target. -/
  target : String
  /-- Who is told about the results. -/
  notify : List String
deriving DecidableEq

/-- What became of a node. -/
structure NodeResult where
  id : String
  status : NodeStatus
  message : Option String
  /-- How long the node was executed, in seconds. -/
  executionTime : Binary64
  thread : Option String
  startedAt : Option Instant
  completedAt : Option Instant
  /-- The relation that the node builds. -/
  relation : Option String
  materialization : Option String
deriving DecidableEq

/-- How many nodes there are of each status. -/
structure RunSummary where
  total : Nat
  success : Nat
  error : Nat
  skipped : Nat
deriving DecidableEq, Repr

/-- What a run has produced. -/
structure Execution where
  /-- The results in the order in which the nodes were done. -/
  results : List NodeResult
  /-- How long the run took, in seconds. -/
  elapsedTime : Binary64
  generatedAt : Instant
  args : RunArgs
deriving DecidableEq

/-- The result of a node that did not start. -/
def NodeResult.skipped (id message : String) : NodeResult where
  id
  status := .skipped
  message := some message
  executionTime := Binary64.ofInt 0
  thread := none
  startedAt := none
  completedAt := none
  relation := none
  materialization := none

/-- The arguments of a run that says nothing. -/
def RunArgs.default : RunArgs := ⟨"", [], [], 0, false, "", []⟩

namespace Execution

/-- How many results have a status. -/
def count (execution : Execution) (status : NodeStatus) : Nat :=
  execution.results.countP (·.status = status)

/-- How many results there are of each status. -/
def summary (execution : Execution) : RunSummary :=
  ⟨execution.results.length, execution.count .success, execution.count .error,
    execution.count .skipped⟩

/-- A run succeeds when every node does. -/
def succeeded (execution : Execution) : Bool := execution.results.all (·.status = .success)

/-- The first result of a node. -/
def get? (execution : Execution) (id : String) : Option NodeResult :=
  execution.results.find? (·.id = id)

end Execution

open Json

/-- Arguments of a run as JSON. -/
def RunArgs.toJson (args : RunArgs) : Json :=
  .object [
    ("command", .string args.command),
    ("select", .strings args.select),
    ("exclude", .strings args.exclude),
    ("threads", .nat args.threads),
    ("fail_fast", .bool args.failFast),
    ("target", .string args.target),
    ("notify", .strings args.notify)]

/-- Read the arguments of a run. -/
def RunArgs.ofJson? (value : Json) : Option RunArgs := do
  let record ← Record.read? false
    ["command", "select", "exclude", "threads", "fail_fast", "target", "notify"] value
  some {
    command := ← record.required? "command" text?
    select := ← record.withDefault? "select" [] texts?
    exclude := ← record.withDefault? "exclude" [] texts?
    threads := ← record.required? "threads" nat?
    failFast := ← record.withDefault? "fail_fast" false bool?
    target := ← record.required? "target" text?
    notify := ← record.withDefault? "notify" [] texts? }

/-- An instant as JSON. -/
def Instant.toJson (instant : Instant) : Json := .string instant.text

/-- Read an instant. -/
def Instant.ofJson? (value : Json) : Option Instant := (text? value).bind Instant.parse?

/-- A floating-point number as JSON. -/
def Binary64.toJson (value : Binary64) : Json := .number (.real value)

/-- The result of a node as JSON, without what is missing. -/
def NodeResult.toJson (result : NodeResult) : Json :=
  .object (
    [("unique_id", .string result.id), ("status", .string result.status.text)]
      ++ optionalMember "message" .string result.message
      ++ [("execution_time", result.executionTime.toJson)]
      ++ optionalMember "thread_id" .string result.thread
      ++ optionalMember "started_at" Instant.toJson result.startedAt
      ++ optionalMember "completed_at" Instant.toJson result.completedAt
      ++ optionalMember "relation" .string result.relation
      ++ optionalMember "materialization" .string result.materialization)

/-- Read the result of a node. -/
def NodeResult.ofJson? (value : Json) : Option NodeResult := do
  let record ← Record.read? false
    ["unique_id", "status", "message", "execution_time", "thread_id", "started_at",
      "completed_at", "relation", "materialization"] value
  some {
    id := ← record.required? "unique_id" text?
    status := ← record.required? "status" (named? NodeStatus.names)
    message := ← record.withDefault? "message" none (Json.nullable? text?)
    executionTime := ← record.required? "execution_time" real?
    thread := ← record.withDefault? "thread_id" none (Json.nullable? text?)
    startedAt := ← record.withDefault? "started_at" none (Json.nullable? Instant.ofJson?)
    completedAt := ← record.withDefault? "completed_at" none (Json.nullable? Instant.ofJson?)
    relation := ← record.withDefault? "relation" none (Json.nullable? text?)
    materialization := ← record.withDefault? "materialization" none (Json.nullable? text?) }

/-- A summary as JSON. -/
def RunSummary.toJson (summary : RunSummary) : Json :=
  .object [("total", .nat summary.total), ("success", .nat summary.success),
    ("error", .nat summary.error), ("skipped", .nat summary.skipped)]

/-- Read what a run has produced. -/
def Execution.ofJson? (value : Json) : Option Execution := do
  let record ← Record.read? false ["results", "elapsed_time", "generated_at", "args"] value
  some {
    results := ← record.required? "results" (list? NodeResult.ofJson?)
    elapsedTime := ← record.required? "elapsed_time" real?
    generatedAt := ← record.required? "generated_at" Instant.ofJson?
    args := ← record.required? "args" RunArgs.ofJson? }

end SqlPipeline
