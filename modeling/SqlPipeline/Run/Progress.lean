import SqlPipeline.Build.Command
import SqlPipeline.Results.Execution
import SqlPipeline.Run.Executor
import SqlPipeline.Schedule.Queue

/-!
# A run in progress

A run moves in steps. As long as a thread is free and it is not stopping, it takes the next ready
node: a node with nothing to execute is done at once, any other one is handed to a thread. Otherwise
it waits until one of the executions in flight completes. A thread executes what it was handed at
some later moment, beside the run: before the next node is taken, or only when the run waits. A node
that fails makes everything skipped that depends on it, or, if the run fails fast, everything that
has not been taken. The run is over when a step changes nothing.
-/

namespace SqlPipeline

/-- What the clock tells during a run. -/
structure Clock where
  /-- The time at which anything happens. -/
  now : Instant
  /-- How long an execution takes, in seconds. -/
  execution : Binary64
  /-- How long the run takes, in seconds. -/
  run : Binary64
deriving DecidableEq

/-- How a run goes. -/
structure RunPlan where
  command : Command
  /-- How many models are executed at once; none means one. -/
  threads : Nat
  /-- Whether to take nothing more after the first error. -/
  failFast : Bool
  clock : Clock
deriving DecidableEq

/-- An execution that has been handed to a thread and whose result has not been recorded. -/
structure InFlight where
  thread : Nat
  model : CompiledModel
  /-- The result, once the model has been executed. -/
  result? : Option NodeResult
deriving DecidableEq

/-- What happens in a run. -/
inductive RunEvent where
  /-- The statement of a node is executed on a thread. -/
  | started (id : String) (thread : Nat)
  /-- The result of an execution is recorded. -/
  | completed (id : String)
deriving DecidableEq, Repr

/-- A run in progress. -/
structure Progress (σ : Type) where
  queue : Queue
  /-- The results so far. -/
  results : List NodeResult
  /-- The executions in flight, the first one handed over first. -/
  inFlight : List InFlight
  /-- The free threads; the first one is taken next. -/
  freeThreads : List Nat
  /-- Whether nothing more is taken. -/
  stopping : Bool
  /-- What has happened so far. -/
  events : List RunEvent
  /-- The state of the executor. -/
  state : σ

/-- What is to be done with a node. -/
inductive Prepared where
  | done (result : NodeResult)
  | execute (model : CompiledModel)

namespace RunPlan

/-- The result of a node that ends at once. -/
def finished (plan : RunPlan) (id : String) (status : NodeStatus) (message : String) :
    NodeResult :=
  { NodeResult.skipped id message with
    status
    startedAt := some plan.clock.now
    completedAt := some plan.clock.now }

/-- The result of a node that ends at once, with what it builds. -/
def finishedModel (plan : RunPlan) (model : CompiledModel) (id : String) (status : NodeStatus)
    (message : String) : NodeResult :=
  { plan.finished id status message with
    relation := some model.relation
    materialization := some model.materialization.text }

/-- What is to be done with a node. -/
def prepare (plan : RunPlan) (compiled : Compilation) (id : String) : Prepared :=
  match compiled.get? id with
  | none => .done (plan.finished id .error "Model was not compiled")
  | some (.error error) =>
    .done (plan.finished id .error ("Compilation error: " ++ error.message))
  | some (.ok model) =>
    if !plan.command.supports model.materialization then
      .done (plan.finishedModel model id .error
        ("Materialization '" ++ model.materialization.text ++ "' is not supported by the '"
          ++ plan.command.text ++ "' command"))
    else if !plan.command.executes then .done (plan.finishedModel model id .success "compiled")
    else if model.statement.isNone then .done (plan.finishedModel model id .success "ephemeral")
    else .execute model

/-- The result of an execution. -/
def executed (plan : RunPlan) (model : CompiledModel) (thread : Nat)
    (outcome : Except ExecuteError String) : NodeResult :=
  let (status, message) := match outcome with
    | .ok message => (NodeStatus.success, message)
    | .error error => (NodeStatus.error, error.message)
  { plan.finishedModel model model.id status message with
    executionTime := plan.clock.execution
    thread := some ("Thread-" ++ toString thread) }

end RunPlan

namespace Progress

variable {σ : Type}

/-- The start of a run of the selected nodes of a graph. -/
def start (plan : RunPlan) (graph : Graph) (selected : NameSet) (state : σ) : Progress σ where
  queue := .ofGraph graph selected
  results := []
  inFlight := []
  freeThreads := (List.range (max plan.threads 1)).map (· + 1)
  stopping := false
  events := []
  state

/-- The result of a node that is skipped because of another one. -/
def skippedBecause (skipped : SkippedNode) : NodeResult :=
  .skipped skipped.name ("Skipped because upstream '" ++ skipped.cause ++ "' did not succeed")

/-- Record the result of a running node, and the nodes that are skipped because of it. -/
def record (plan : RunPlan) (progress : Progress σ) (result : NodeResult) :
    Except QueueError (Progress σ) := do
  let (update, queue) := progress.queue.markDone result.id result.status
  let update ← update
  let results := progress.results ++ result :: update.skipped.map skippedBecause
  if result.status = .error ∧ plan.failFast then
    let (remaining, queue) := queue.skipRemaining
    .ok { progress with
      queue
      results := results ++ remaining.map fun id =>
        .skipped id "Skipped after an earlier failure (fail fast)"
      stopping := true }
  else .ok { progress with queue, results }

/-- Whether a node is taken next: the run is not stopping, a thread is free and a node is ready. -/
def canTake (progress : Progress σ) : Bool :=
  !progress.stopping && !progress.freeThreads.isEmpty && progress.queue.popReady.1.isSome

/-- Take the next ready node. It is done at once, or it is handed to the next free thread. -/
def take (plan : RunPlan) (compiled : Compilation) (progress : Progress σ) :
    Except QueueError (Progress σ) :=
  match progress.freeThreads, progress.queue.popReady with
  | thread :: others, (some id, queue) =>
    match plan.prepare compiled id with
    | .done result => record plan { progress with queue } result
    | .execute model => .ok { progress with
        queue
        inFlight := progress.inFlight ++ [⟨thread, model, none⟩]
        freeThreads := others }
  | _, _ => .ok progress

/-- Execute an execution in flight, given by its position. -/
def execute (plan : RunPlan) (executor : Executor σ) (progress : Progress σ) (position : Nat) :
    Progress σ :=
  match progress.inFlight[position]? with
  | none => progress
  | some flight =>
    let (outcome, state) := executor flight.model progress.state
    let result := plan.executed flight.model flight.thread outcome
    { progress with
      inFlight := progress.inFlight.set position { flight with result? := some result }
      events := progress.events ++ [.started flight.model.id flight.thread]
      state }

/-- Complete an execution in flight that has a result, given by its position; its thread is free
again. -/
def complete (plan : RunPlan) (progress : Progress σ) (position : Nat) :
    Except QueueError (Progress σ) :=
  match progress.inFlight[position]? with
  | some ⟨thread, _, some result⟩ =>
    record plan { progress with
      inFlight := progress.inFlight.eraseIdx position
      freeThreads := thread :: progress.freeThreads
      events := progress.events ++ [.completed result.id] } result
  | _ => .ok progress

/-- What can happen next in a run; an execution in flight is given by its position. -/
inductive Move where
  | take
  | execute (position : Nat)
  | complete (position : Nat)
deriving DecidableEq, Repr

/-- The positions of the executions in flight that pass a test. -/
def positions (progress : Progress σ) (test : InFlight → Bool) : List Nat :=
  (List.range progress.inFlight.length).filter fun position =>
    progress.inFlight[position]?.any test

/-- All that can happen next. A thread may execute what it was handed at any moment, but nothing
completes as long as a node can be taken. -/
def possibleMoves (progress : Progress σ) : List Move :=
  let executions := (progress.positions (·.result?.isNone)).map Move.execute
  if progress.canTake then .take :: executions
  else executions ++ (progress.positions (·.result?.isSome)).map Move.complete

/-- The run after a move. -/
def move (plan : RunPlan) (compiled : Compilation) (executor : Executor σ)
    (progress : Progress σ) : Move → Except QueueError (Progress σ)
  | .take => progress.take plan compiled
  | .execute position => .ok (progress.execute plan executor position)
  | .complete position => progress.complete plan position

/-- One step of a run: one of the possible moves, given by its number counted around. Nothing
changes when nothing is possible. -/
def step (plan : RunPlan) (compiled : Compilation) (executor : Executor σ) (number : Nat)
    (progress : Progress σ) : Except QueueError (Progress σ) :=
  match progress.possibleMoves[number % progress.possibleMoves.length]? with
  | none => .ok progress
  | some chosen => progress.move plan compiled executor chosen

/-- Skip what is left when nothing is in flight. -/
def close (progress : Progress σ) : Progress σ :=
  if progress.queue.isFinished then progress
  else
    let (stranded, queue) := progress.queue.skipRemaining
    { progress with
      queue
      results := progress.results ++ stranded.map fun id =>
        .skipped id "Skipped: dependencies never completed" }

end Progress

namespace RunPlan

/-- A run of the selected nodes of a graph after a number of steps. `order` gives for every step the
number of the move that is made among those that are possible. -/
def after {σ : Type} (plan : RunPlan) (graph : Graph) (compiled : Compilation)
    (selected : NameSet) (executor : Executor σ) (state : σ) (order : Nat → Nat) :
    Nat → Except QueueError (Progress σ)
  | 0 => .ok (.start plan graph selected state)
  | steps + 1 => do
    let progress ← plan.after graph compiled selected executor state order steps
    progress.step plan compiled executor (order steps)

/-- Run the selected nodes of a graph. Every node takes at most three steps: it is taken, executed
and completed. -/
def run {σ : Type} (plan : RunPlan) (graph : Graph) (compiled : Compilation)
    (selected : NameSet) (executor : Executor σ) (state : σ) (order : Nat → Nat) :
    Except QueueError (Progress σ) := do
  let steps := 3 * (Queue.ofGraph graph selected).nodes.size
  let progress ← plan.after graph compiled selected executor state order steps
  .ok progress.close

/-- The order in which nodes are taken as long as one can be, and then whatever was handed over
first is executed and completes first. -/
def inTurn : Nat → Nat := fun _ => 0

end RunPlan

namespace RunEvent

/-- The ids of the nodes that have been executed, in order. -/
def startedIds (events : List RunEvent) : List String :=
  events.filterMap fun
    | started id _ => some id
    | completed _ => none

/-- Executions that are under way at once when each of them takes the same time. The executions that
have started wait together until the first of their results is recorded; `ended` counts those whose
results are still to be recorded then, and `waiting` those that have started since. -/
def mostAtOnceFrom (ended waiting : Nat) : List RunEvent → Nat
  | [] => 0
  | started _ _ :: events => mostAtOnceFrom ended (waiting + 1) events
  | completed _ :: events =>
    match ended with
    | 0 => max waiting (mostAtOnceFrom (waiting - 1) 0 events)
    | rest + 1 => mostAtOnceFrom rest waiting events

/-- The greatest number of executions under way at once when each of them takes the same time. -/
def mostAtOnce (events : List RunEvent) : Nat := mostAtOnceFrom 0 0 events

end RunEvent

end SqlPipeline
