import SqlPipeline.Proofs.Schedule.Effect
import SqlPipeline.Proofs.Success

/-!
# The life of a node

Three calls change a node, in any order and with any arguments.  A count only falls, by one for each
parent that is waited for; a status only moves forward, and a final one stays.  Only a node that
waits for nothing is started, and it cannot wait for anything again, so no node runs while it waits.
-/

namespace SqlPipeline
namespace ScheduledNode

/-- A call that changes a node. -/
inductive Call where
  | decrement
  | start (now : Moment)
  | finish (status : NodeStatus) (now : Moment)
deriving DecidableEq, Repr

/-- The node that a call makes of a node, or why it is refused. -/
def call (node : ScheduledNode) : Call → Except NodeError ScheduledNode
  | .decrement => node.decrement
  | .start now => node.start now
  | .finish status now => node.finish status now

/-- The node after a call, the same one if the call is refused. -/
def afterCall (node : ScheduledNode) (call : Call) : ScheduledNode :=
  match node.call call with
  | .ok next => next
  | .error _ => node

/-- The node after a sequence of calls. -/
def afterCalls (node : ScheduledNode) (calls : List Call) : ScheduledNode :=
  calls.foldl afterCall node

/-- How many parents less are waited for after a sequence of calls; refused calls do not count. -/
def decrements (node : ScheduledNode) : List Call → Nat
  | [] => 0
  | call :: calls =>
    (if call = .decrement ∧ (node.call call).isOk = true then 1 else 0) +
      (node.afterCall call).decrements calls

/-! ## Nodes that are written in place -/

/-- Steps on a node that is kept in place: what was written before a failure stays. -/
abbrev InPlace := ExceptT NodeError (StateM ScheduledNode)

/-- Fail unless the node passes a test. -/
def demand (test : ScheduledNode → Bool) (error : ScheduledNode → NodeError) : InPlace Unit := do
  let node ← get
  if test node then pure () else throw (error node)

/-- A call as writes to one field of a node after the other. -/
def write : Call → InPlace Unit
  | .decrement => do
    demand (fun node => node.inDegree ≠ 0) fun node => .inDegreeUnderflow node.name
    modify fun node => { node with inDegree := node.inDegree - 1 }
    modify fun node => { node with updated := .clock }
  | .start now => do
    demand isReady fun node => .invalidTransition node.name node.status .running
    modify fun node => { node with status := .running }
    modify fun node => { node with started := now }
    modify fun node => { node with updated := now }
  | .finish status now => do
    demand (fun node => status.isTerminal && !node.status.isTerminal) fun node =>
      .invalidTransition node.name node.status status
    modify fun node => { node with status }
    modify fun node => { node with updated := now }

/-- The answer of a call that is made in place, and the node that it leaves. -/
def written (node : ScheduledNode) (call : Call) : Except NodeError Unit × ScheduledNode :=
  (write call).run.run node

variable {node next : ScheduledNode} {call : Call} {calls : List Call} {error : NodeError}

theorem run_demand_bind (test : ScheduledNode → Bool) (error : ScheduledNode → NodeError)
    (rest : Unit → InPlace Unit) (node : ScheduledNode) :
    (demand test error >>= rest).run.run node =
      if test node = true then (rest ()).run.run node else (.error (error node), node) := by
  change ((if test node then pure () else throw (error node) : InPlace Unit) >>= rest).run.run node
    = _
  split <;> rfl

/-- A call in place agrees with the call if both answer by the same test. -/
theorem written_eq_of_ite {test : Bool}
    (called : node.call call = if test = true then .ok next else .error error)
    (wrote : node.written call = if test = true then (.ok (), next) else (.error error, node)) :
    node.written call = ((node.call call).map fun _ => (), node.afterCall call) := by
  rw [wrote, afterCall, called]
  split <;> rfl

/-- A call that is made in place fails before it has written anything. -/
theorem written_eq (node : ScheduledNode) (call : Call) :
    node.written call = ((node.call call).map fun _ => (), node.afterCall call) := by
  cases call with
  | decrement =>
    have called : node.call .decrement = if decide (node.inDegree ≠ 0) = true
        then .ok { node with inDegree := node.inDegree - 1, updated := .clock }
        else .error (.inDegreeUnderflow node.name) := by
      rw [ScheduledNode.call, ScheduledNode.decrement]
      cases node.inDegree <;> rfl
    exact written_eq_of_ite called (run_demand_bind _ _ _ node)
  | start now =>
    have called : node.call (.start now) = if node.isReady = true
        then .ok { node with status := .running, updated := now, started := now }
        else .error (.invalidTransition node.name node.status .running) := rfl
    exact written_eq_of_ite called (run_demand_bind _ _ _ node)
  | finish status now =>
    have called : node.call (.finish status now) =
        if (status.isTerminal && !node.status.isTerminal) = true
        then .ok { node with status, updated := now }
        else .error (.invalidTransition node.name node.status status) := by
      rw [ScheduledNode.call, ScheduledNode.finish]
      cases status.isTerminal <;> cases node.status.isTerminal <;> rfl
    exact written_eq_of_ite called (run_demand_bind _ _ _ node)

/-! ## One call -/

/-- What a call makes of a node: it is refused, or it counts down, starts the node or ends it. -/
inductive Becomes (node : ScheduledNode) : Call → ScheduledNode → Prop
  | refused {call : Call} : (node.call call).isOk = false → Becomes node call node
  | decremented {rest : Nat} : node.inDegree = rest + 1 →
      Becomes node .decrement { node with inDegree := rest, updated := .clock }
  | started {now : Moment} : node.inDegree = 0 → node.status = .pending →
      Becomes node (.start now) { node with status := .running, updated := now, started := now }
  | ended {status : NodeStatus} {now : Moment} :
      status.isTerminal = true → node.status.isTerminal = false →
      Becomes node (.finish status now) { node with status, updated := now }

theorem decrement_eq_error_iff :
    node.decrement = .error error ↔ node.inDegree = 0 ∧ error = .inDegreeUnderflow node.name := by
  rw [ScheduledNode.decrement]
  cases node.inDegree with
  | zero => simp [eq_comm]
  | succ rest => simp

theorem isOk_decrement_of_waits {rest : Nat} (waits : node.inDegree = rest + 1) :
    (node.call .decrement).isOk = true := by
  simp [ScheduledNode.call, ScheduledNode.decrement, waits, Except.isOk, Except.toBool]

theorem becomes_of_ok (done : node.call call = .ok next) : node.Becomes call next := by
  cases call with
  | decrement =>
    change node.decrement = .ok next at done
    rw [ScheduledNode.decrement] at done
    split at done
    · cases done
    next rest waits =>
      cases done
      exact .decremented waits
  | start now =>
    change node.start now = .ok next at done
    rw [ScheduledNode.start] at done
    split at done
    next ready =>
      cases done
      exact .started (isReady_iff.mp ready).1 (isReady_iff.mp ready).2
    · cases done
  | finish status now =>
    change node.finish status now = .ok next at done
    rw [ScheduledNode.finish] at done
    split at done
    · cases done
    next allowed =>
      cases done
      simp only [Bool.or_eq_true, Bool.not_eq_true', not_or, Bool.not_eq_false,
        Bool.not_eq_true] at allowed
      exact .ended allowed.1 allowed.2

theorem afterCall_of_error (refused : node.call call = .error error) :
    node.afterCall call = node := by
  rw [afterCall, refused]

theorem becomes_afterCall (node : ScheduledNode) (call : Call) :
    node.Becomes call (node.afterCall call) := by
  cases done : node.call call with
  | error error =>
    rw [afterCall_of_error done]
    exact .refused (by rw [done]; rfl)
  | ok next =>
    rw [afterCall, done]
    exact becomes_of_ok done

theorem Becomes.inDegree (step : node.Becomes call next) :
    next.inDegree + (if call = .decrement ∧ (node.call call).isOk = true then 1 else 0) =
      node.inDegree := by
  cases step with
  | refused refused => simp [refused]
  | decremented waits => simp [isOk_decrement_of_waits waits, waits]
  | started none waits => simp
  | ended final unfinished => simp

/-- A status stays or moves forward. -/
theorem Becomes.status (step : node.Becomes call next) :
    next.status = node.status ∨
    node.status = .pending ∧ (next.status = .running ∨ next.status.isTerminal = true) ∨
    node.status = .running ∧ next.status.isTerminal = true := by
  cases step with
  | refused refused => exact .inl rfl
  | decremented waits => exact .inl rfl
  | started none waits => exact .inr (.inl ⟨waits, .inl rfl⟩)
  | ended final unfinished =>
    cases held : node.status with
    | pending => exact .inr (.inl ⟨rfl, .inr final⟩)
    | running => exact .inr (.inr ⟨rfl, final⟩)
    | success | error | skipped =>
      rw [held] at unfinished
      cases unfinished

/-- The time of the start is set when the node starts to run. -/
theorem Becomes.start_time (step : node.Becomes call next) :
    next.started = node.started ∨ node.status = .pending ∧ next.status = .running := by
  cases step with
  | refused refused => exact .inl rfl
  | decremented waits => exact .inl rfl
  | started none waits => exact .inr ⟨waits, rfl⟩
  | ended final unfinished => exact .inl rfl

theorem Becomes.status_of_terminal (step : node.Becomes call next)
    (final : node.status.isTerminal = true) : next.status = node.status := by
  rcases step.status with same | ⟨waits, -⟩ | ⟨runs, -⟩
  · exact same
  · rw [waits] at final
    cases final
  · rw [runs] at final
    cases final

/-- A node waits for nothing while it runs. -/
def RunsFree (node : ScheduledNode) : Prop := node.status = .running → node.inDegree = 0

/-- A node that runs cannot count down, and one that ends does not run. -/
theorem Becomes.runsFree (step : node.Becomes call next) (free : node.RunsFree) :
    next.RunsFree := by
  cases step with
  | refused refused => exact free
  | decremented waits =>
    intro runs
    have none : node.inDegree = 0 := free runs
    omega
  | started none waits => exact fun _ => none
  | ended final unfinished =>
    rintro rfl
    cases final

/-! ## Sequences of calls -/

theorem inDegree_afterCalls (node : ScheduledNode) (calls : List Call) :
    (node.afterCalls calls).inDegree + node.decrements calls = node.inDegree := by
  induction calls generalizing node with
  | nil => rfl
  | cons call calls ih =>
    have first := (node.becomes_afterCall call).inDegree
    have later := ih (node.afterCall call)
    rw [decrements]
    change ((node.afterCall call).afterCalls calls).inDegree + _ = _
    omega

theorem status_afterCalls_of_terminal (final : node.status.isTerminal = true) (calls : List Call) :
    (node.afterCalls calls).status = node.status := by
  induction calls generalizing node with
  | nil => rfl
  | cons call calls ih =>
    have stays := (node.becomes_afterCall call).status_of_terminal final
    exact (ih (stays ▸ final)).trans stays

theorem RunsFree.afterCalls (free : node.RunsFree) (calls : List Call) :
    (node.afterCalls calls).RunsFree := by
  induction calls generalizing node with
  | nil => exact free
  | cons call calls ih => exact ih ((node.becomes_afterCall call).runsFree free)

/-- Whatever calls are made of a new node, it waits for as many parents less as calls have counted
down, and it refuses to count below zero.  It runs only while it waits for nothing, and with a final
status it stays.  A further call moves the status forward or leaves it, sets the time of the start
only when the node starts to run, and leaves the whole node as it was if it is refused, also when
the fields are written one after the other. -/
theorem lifecycle_afterCalls (name : String) (inDegree : Nat) (calls : List Call) :
    let start := waiting name inDegree
    let node := start.afterCalls calls
    (start.decrements calls ≤ inDegree ∧ node.inDegree = inDegree - start.decrements calls ∧
      ∀ error, node.decrement = .error error ↔
        node.inDegree = 0 ∧ error = .inDegreeUnderflow node.name) ∧
    (node.status = .running → node.inDegree = 0) ∧
    (node.status.isTerminal = true → ∀ later, (node.afterCalls later).status = node.status) ∧
    ∀ call, let after := node.afterCall call
      (after.status = node.status ∨
        node.status = .pending ∧ (after.status = .running ∨ after.status.isTerminal = true) ∨
        node.status = .running ∧ after.status.isTerminal = true) ∧
      (after.started = node.started ∨ node.status = .pending ∧ after.status = .running) ∧
      (node.written call).2 = after ∧
      (∀ error, (node.written call).1 = .error error ↔ node.call call = .error error) ∧
      ∀ error, (node.written call).1 = .error error → (node.written call).2 = node := by
  intro start node
  have counted : node.inDegree + start.decrements calls = inDegree :=
    inDegree_afterCalls start calls
  have begins : start.RunsFree := by
    intro runs
    cases runs
  have free : node.RunsFree := begins.afterCalls calls
  refine ⟨⟨by omega, by omega, fun error => decrement_eq_error_iff⟩, free,
    status_afterCalls_of_terminal, fun call => ⟨(node.becomes_afterCall call).status,
      (node.becomes_afterCall call).start_time, ?_, fun error => ?_, fun error refused => ?_⟩⟩
  · rw [written_eq]
  · rw [written_eq]
    refine ⟨eq_error_of_map, fun refused => ?_⟩
    rw [refused]
    rfl
  · rw [written_eq] at refused ⊢
    exact afterCall_of_error (eq_error_of_map refused)

end ScheduledNode
end SqlPipeline
