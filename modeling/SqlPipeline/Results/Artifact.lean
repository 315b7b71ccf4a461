import SqlPipeline.Digest.Sha256
import SqlPipeline.Json.Parser
import SqlPipeline.Json.Printer
import SqlPipeline.Results.Execution

/-!
# The artifact of a run

The results of a run with the version of their format and an id of the run, which is derived from
the time and the command.
-/

namespace SqlPipeline

/-- The version of the format of an artifact. -/
structure ArtifactVersion where
  major : Nat
  minor : Nat
deriving DecidableEq, Repr

namespace ArtifactVersion

/-- The version that is written. -/
def current : ArtifactVersion := ⟨1, 0⟩

/-- Both numbers with a point between them. -/
def text (version : ArtifactVersion) : String :=
  toString version.major ++ "." ++ toString version.minor

end ArtifactVersion

/-- The artifact of a run. -/
structure RunArtifact where
  version : ArtifactVersion
  generatedAt : Instant
  /-- The id of the run. -/
  invocation : String
  results : List NodeResult
  elapsedTime : Binary64
  args : RunArgs
deriving DecidableEq

namespace RunArtifact

/-- The id of a run of a command at a time. -/
def invocationOf (generatedAt : Instant) (command : String) : String :=
  String.ofList ((Sha256.ofText (generatedAt.offsetText ++ ":" ++ command)).toList.take 32)

/-- The artifact of a run. -/
def ofExecution (execution : Execution) : RunArtifact where
  version := .current
  generatedAt := execution.generatedAt
  invocation := invocationOf execution.generatedAt execution.args.command
  results := execution.results
  elapsedTime := execution.elapsedTime
  args := execution.args

open Json

/-- An artifact as JSON. -/
def toJson (artifact : RunArtifact) : Json :=
  .object [
    ("metadata", .object [
      ("schema_version", .object [
        ("major", .nat artifact.version.major), ("minor", .nat artifact.version.minor)]),
      ("generated_at", artifact.generatedAt.toJson),
      ("invocation_id", .string artifact.invocation)]),
    ("results", .array (artifact.results.map NodeResult.toJson)),
    ("elapsed_time", artifact.elapsedTime.toJson),
    ("args", artifact.args.toJson)]

/-- Read a version. -/
def versionOfJson? (value : Json) : Option ArtifactVersion := do
  let record ← Record.read? false ["major", "minor"] value
  some {
    major := ← record.required? "major" (natBelow? (Nat.pow 2 32))
    minor := ← record.required? "minor" (natBelow? (Nat.pow 2 32)) }

/-- Read an artifact. -/
def ofJson? (value : Json) : Option RunArtifact := do
  let record ← Record.read? false ["metadata", "results", "elapsed_time", "args"] value
  let metadata ← record.required? "metadata"
    (Record.read? false ["schema_version", "generated_at", "invocation_id"])
  some {
    version := ← metadata.required? "schema_version" versionOfJson?
    generatedAt := ← metadata.required? "generated_at" Instant.ofJson?
    invocation := ← metadata.required? "invocation_id" text?
    results := ← record.required? "results" (list? NodeResult.ofJson?)
    elapsedTime := ← record.required? "elapsed_time" real?
    args := ← record.required? "args" RunArgs.ofJson? }

/-- The text of an artifact. -/
def print (artifact : RunArtifact) : String := Json.pretty artifact.toJson

/-- The artifact that a text denotes. -/
def parse? (text : String) : Option RunArtifact := (Json.read? text).bind ofJson?

end RunArtifact

end SqlPipeline
