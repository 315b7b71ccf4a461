import SqlPipeline.Results.Execution

/-!
# The report of a run

What is printed after a run: a line for each node, the reason of each node that did not succeed, and
the counts.
-/

namespace SqlPipeline.CommandLine

/-- The line above and below the report. -/
def ruler : String := String.ofList (List.replicate 60 '=')

/-- The label of a status in the report. -/
def statusLabel : NodeStatus → String
  | .success => "OK"
  | .error => "ERROR"
  | .skipped => "SKIP"
  | _ => "?"

/-- Seconds with two places. -/
def secondsText (value : Binary64) : String := String.ofList (twoPlaces value) ++ "s"

/-- Whether a duration is longer than nothing. -/
def isPositive (value : Binary64) : Bool := value.compare? (Binary64.ofInt 0) == some .gt

/-- The lines of a node. -/
def nodeLines (result : NodeResult) : List String :=
  let time := if isPositive result.executionTime then
      " (" ++ secondsText result.executionTime ++ ")"
    else ""
  let first := "  [" ++ statusLabel result.status ++ "] " ++ result.id ++ time
  match result.message with
  | some message => if result.status = .success then [first] else [first, "    " ++ message]
  | none => [first]

/-- The lines of the report of a run whose results have been written to a path. -/
def reportLines (execution : Execution) (output : String) : List String :=
  let summary := execution.summary
  ["", ruler, "modelflow " ++ execution.args.command, ruler, ""]
    ++ execution.results.flatMap nodeLines
    ++ ["", "Summary:",
      "  Total:    " ++ toString summary.total,
      "  Success:  " ++ toString summary.success,
      "  Errors:   " ++ toString summary.error,
      "  Skipped:  " ++ toString summary.skipped,
      "  Elapsed:  " ++ secondsText execution.elapsedTime,
      "",
      if execution.succeeded then "✓ Completed successfully" else "✗ Completed with errors",
      "Results written to " ++ output,
      ruler]

end SqlPipeline.CommandLine
