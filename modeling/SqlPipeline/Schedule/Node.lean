/-!
# Scheduled nodes

A node counts the parents that it still waits for, and moves from waiting over running to one of
three final states, or directly to a final state. A call that fails leaves the node as it was.
-/

namespace SqlPipeline

/-- Where a node is in a run. -/
inductive NodeStatus where
  | pending
  | running
  | success
  | error
  | skipped
deriving DecidableEq, Repr

namespace NodeStatus

/-- Whether a status is final. -/
def isTerminal : NodeStatus → Bool
  | success => true
  | error => true
  | skipped => true
  | _ => false

/-- The word for a status. -/
def text : NodeStatus → String
  | pending => "pending"
  | running => "running"
  | success => "success"
  | error => "error"
  | skipped => "skipped"

/-- The words for all statuses. -/
def names : List (String × NodeStatus) :=
  [pending, running, success, error, skipped].map fun status => (status.text, status)

end NodeStatus

/-- When something happened: at a given time, or whenever the clock was read. -/
inductive Moment where
  | clock
  /-- Milliseconds since the epoch. -/
  | at (millis : Int)
deriving DecidableEq, Repr

/-- A node of a run. -/
structure ScheduledNode where
  name : String
  /-- How many parents the node still waits for. -/
  inDegree : Nat
  status : NodeStatus
  /-- When the node last changed. -/
  updated : Moment
  /-- When the node started, zero until then. -/
  started : Moment
deriving DecidableEq, Repr

/-- Why a node cannot change as asked. -/
inductive NodeError where
  | inDegreeUnderflow (node : String)
  | invalidTransition (node : String) (source target : NodeStatus)
deriving DecidableEq, Repr

/-- What is wrong, in words. -/
def NodeError.message : NodeError → String
  | inDegreeUnderflow node => "In-degree of node '" ++ node ++ "' is already zero"
  | invalidTransition node source target =>
    "Node '" ++ node ++ "' cannot move from " ++ source.text ++ " to " ++ target.text

namespace ScheduledNode

/-- A node that waits for a number of parents. -/
def waiting (name : String) (inDegree : Nat) : ScheduledNode :=
  ⟨name, inDegree, .pending, .clock, .at 0⟩

/-- Whether the node waits for nothing and has not started. -/
def isReady (node : ScheduledNode) : Bool := node.inDegree = 0 && node.status = .pending

/-- Wait for one parent less. -/
def decrement (node : ScheduledNode) : Except NodeError ScheduledNode :=
  match node.inDegree with
  | 0 => .error (.inDegreeUnderflow node.name)
  | rest + 1 => .ok { node with inDegree := rest, updated := .clock }

/-- Start a ready node. -/
def start (node : ScheduledNode) (now : Moment) : Except NodeError ScheduledNode :=
  if node.isReady then .ok { node with status := .running, updated := now, started := now }
  else .error (.invalidTransition node.name node.status .running)

/-- Move a node to a final state. -/
def finish (node : ScheduledNode) (status : NodeStatus) (now : Moment) :
    Except NodeError ScheduledNode :=
  if !status.isTerminal || node.status.isTerminal then
    .error (.invalidTransition node.name node.status status)
  else .ok { node with status, updated := now }

end ScheduledNode

end SqlPipeline
