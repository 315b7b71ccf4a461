import SqlPipeline.Files.Tree
import SqlPipeline.Results.Artifact
import SqlPipeline.Results.Email

/-!
# Writers of results

The results of a run are kept either as the artifact of the run or as a notification.
-/

namespace SqlPipeline

/-- How results are written. -/
inductive ResultWriter where
  /-- As the artifact of the run. -/
  | artifact
  /-- As a notification. -/
  | email
deriving DecidableEq, Repr

/-- Why results cannot be written. -/
structure WriteError where
  path : String
  error : FileError
deriving DecidableEq, Repr

/-- What is wrong, in words. -/
def WriteError.message (error : WriteError) : String :=
  "Failed to write " ++ error.path ++ ": " ++ error.error.message

namespace ResultWriter

/-- The name of a writer. -/
def name : ResultWriter → String
  | artifact => "default"
  | email => "email"

/-- The text that a writer writes. -/
def text (writer : ResultWriter) (execution : Execution) : String :=
  match writer with
  | artifact => (RunArtifact.ofExecution execution).print
  | email => (Email.ofExecution execution).print

/-- Write the results of a run to a file, with the directories that it needs. -/
def write (writer : ResultWriter) (execution : Execution) (tree : FileTree) (path : String) :
    Except WriteError FileTree := do
  let tree ← match Path.parent? path with
    | none => .ok tree
    | some parent => (tree.createDirectories parent).mapError (⟨path, ·⟩)
  (tree.write path (writer.text execution)).mapError (⟨path, ·⟩)

end ResultWriter

end SqlPipeline
