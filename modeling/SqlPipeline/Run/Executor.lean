import SqlPipeline.Build.Compilation

/-!
# Executors

An executor carries out the statement of a model and reports in words how it went. What it changes
is a state of its own kind: a tree of files, or nothing.
-/

namespace SqlPipeline

/-- Why a statement was not carried out. -/
inductive ExecuteError where
  | failed (reason : String)
  | io (path : String) (error : FileError)
deriving DecidableEq, Repr

/-- What is wrong, in words. -/
def ExecuteError.message : ExecuteError → String
  | failed reason => "Execution failed: " ++ reason
  | io path error => "Failed to write " ++ path ++ ": " ++ error.message

/-- A way to carry out the statement of a model, with the changed state after it. -/
abbrev Executor (σ : Type) := CompiledModel → σ → Except ExecuteError String × σ

namespace Executor

/-- Write each statement to a file below a directory. -/
def files (dir : String) : Executor FileTree := fun model tree =>
  match model.statement with
  | none => (.ok "nothing to execute", tree)
  | some statement =>
    match writeSqlBelow tree dir model.path statement with
    | .ok tree => (.ok (model.materialization.text ++ " " ++ model.relation), tree)
    | .error error => (.error (.io (Path.join dir model.path.shown) error), tree)

/-- Carry out nothing, and fail for the models that have a reason to fail. -/
def rehearsal (failures : NameMap String) : Executor Unit := fun model state =>
  match failures.get? model.id with
  | some reason => (.error (.failed reason), state)
  | none => (.ok ("OK " ++ model.relation), state)

end Executor

end SqlPipeline
