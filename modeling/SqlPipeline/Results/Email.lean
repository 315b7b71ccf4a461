import SqlPipeline.Json.Printer
import SqlPipeline.Results.Execution

/-!
# The notification of a run

A subject with the outcome and the counts, and a body with a line for each node.
-/

namespace SqlPipeline

/-- The notification of a run. -/
structure Email where
  subject : String
  recipients : List String
  body : String
  summary : RunSummary
  elapsedTime : Binary64
  generatedAt : Instant
  args : RunArgs
deriving DecidableEq

namespace Email

/-- The label of a status in the body. -/
def label : NodeStatus → String
  | .success => "OK"
  | .error => "ERROR"
  | .skipped => "SKIP"
  | .pending => "PENDING"
  | .running => "RUNNING"

/-- A text with blanks after it up to a width. -/
def padded (width : Nat) (text : String) : String :=
  text ++ String.ofList (List.replicate (width - text.length) ' ')

/-- The line of a node. -/
def nodeLine (result : NodeResult) : String :=
  let message := match result.message with
    | some message => if message.isEmpty then "" else " - " ++ message
    | none => ""
  padded 8 (label result.status) ++ " " ++ result.id ++ message ++ "\n"

/-- The command that a notification names. -/
def commandOf (args : RunArgs) : String := if args.command.isEmpty then "run" else args.command

/-- The subject of a notification. -/
def subjectOf (execution : Execution) : String :=
  let summary := execution.summary
  "modelflow " ++ commandOf execution.args ++ " "
    ++ (if execution.succeeded then "succeeded" else "failed") ++ ": "
    ++ toString summary.success ++ " ok, " ++ toString summary.error ++ " error, "
    ++ toString summary.skipped ++ " skipped"

/-- The body of a notification. -/
def bodyOf (execution : Execution) : String :=
  "Finished " ++ commandOf execution.args ++ " of " ++ toString execution.summary.total
    ++ " nodes in " ++ String.ofList (twoPlaces execution.elapsedTime) ++ "s.\n\n"
    ++ String.join (execution.results.map nodeLine)

/-- The notification of a run. -/
def ofExecution (execution : Execution) : Email where
  subject := subjectOf execution
  recipients := execution.args.notify
  body := bodyOf execution
  summary := execution.summary
  elapsedTime := execution.elapsedTime
  generatedAt := execution.generatedAt
  args := execution.args

/-- A notification as JSON. -/
def toJson (email : Email) : Json :=
  .object [
    ("subject", .string email.subject),
    ("recipients", .strings email.recipients),
    ("body", .string email.body),
    ("summary", email.summary.toJson),
    ("elapsed_time", email.elapsedTime.toJson),
    ("generated_at", email.generatedAt.toJson),
    ("args", email.args.toJson)]

/-- The text of a notification. -/
def print (email : Email) : String := Json.pretty email.toJson

end Email

end SqlPipeline
