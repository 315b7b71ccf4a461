import SqlPipeline.Model.Selector
import SqlPipeline.Run.Progress

/-!
# Running a command on a project

The arguments of a run are completed from the settings of the project; then models are selected,
compiled and executed.
-/

namespace SqlPipeline

/-- A command with the arguments of its run. -/
structure RunTask where
  command : Command
  args : RunArgs
deriving DecidableEq

/-- Why a run does not take place. -/
inductive RunError where
  | select (error : SelectError)
  | queue (error : QueueError)
deriving DecidableEq, Repr

/-- What is wrong, in words. -/
def RunError.message : RunError → String
  | select error => error.message
  | queue error => error.message

/-- What a run has produced, and how it went. -/
structure RunOutcome (σ : Type) where
  execution : Execution
  events : List RunEvent
  state : σ

namespace RunTask

/-- The task of a project with given arguments. Zero threads and an empty target stand for those of
the settings. -/
def ofArgs (settings : Settings) (args : RunArgs) : Except UnknownCommand RunTask := do
  let command ← Command.parse args.command
  .ok {
    command
    args := { args with
      command := command.text
      threads := if args.threads = 0 then settings.target.threads else args.threads
      target := if args.target.isEmpty then settings.target.name else args.target } }

/-- How the run of a task goes. -/
def plan (task : RunTask) (clock : Clock) : RunPlan :=
  ⟨task.command, task.args.threads, task.args.failFast, clock⟩

/-- What a finished run has produced. -/
def outcome {σ : Type} (args : RunArgs) (clock : Clock) (progress : Progress σ) : RunOutcome σ where
  execution := ⟨progress.results, clock.run, clock.now, args⟩
  events := progress.events
  state := progress.state

/-- Run a task on the selected models of a compiled project. -/
def runCompiled {σ : Type} (task : RunTask) (project : Project) (clock : Clock)
    (compiled : Compilation) (selected : NameSet) (executor : Executor σ) (state : σ)
    (order : Nat → Nat) : Except RunError (RunOutcome σ) := do
  let progress ← ((task.plan clock).run project.graph compiled selected executor state
    order).mapError .queue
  .ok (outcome task.args clock progress)

/-- Select and compile models, and run a task on them. -/
def run {σ : Type} (task : RunTask) (project : Project) (clock : Clock) (executor : Executor σ)
    (state : σ) (order : Nat → Nat) : Except RunError (RunOutcome σ) := do
  let selected ← (project.select task.args.select task.args.exclude).mapError .select
  task.runCompiled project clock project.compile selected executor state order

end RunTask

end SqlPipeline
