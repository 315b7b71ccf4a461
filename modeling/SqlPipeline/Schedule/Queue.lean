import SqlPipeline.Graph.Walk
import SqlPipeline.NameMap
import SqlPipeline.Schedule.Node

/-!
# The queue of a run

A queue holds the selected nodes of a graph. A node waits for the nearest selected nodes that it
depends on, also where unselected nodes lie between them. A node that succeeds releases its
children; a node that does not makes everything skipped that depends on it and has not started.
-/

namespace SqlPipeline

/-- A node that is skipped because another one did not succeed. -/
structure SkippedNode where
  name : String
  /-- The node that did not succeed. -/
  cause : String
deriving DecidableEq, Repr

/-- What changes when a node is done. -/
structure QueueUpdate where
  /-- The nodes that became ready. -/
  ready : List String
  /-- The nodes that were skipped. -/
  skipped : List SkippedNode
deriving DecidableEq, Repr

/-- Why a node cannot be marked as done. -/
inductive QueueError where
  | unknownNode (name : String)
  | notRunning (name : String)
  | node (error : NodeError)
deriving DecidableEq, Repr

/-- What is wrong, in words. -/
def QueueError.message : QueueError → String
  | unknownNode name => "Node '" ++ name ++ "' is not part of this queue"
  | notRunning name => "Node '" ++ name ++ "' is not running"
  | node error => error.message

/-- The selected nodes of a graph, and which of them are ready. -/
structure Queue where
  nodes : NameMap ScheduledNode
  /-- The nodes that wait for each node. -/
  children : NameMap NameSet
  ready : NameSet
deriving DecidableEq

/-- The nearest selected nodes that a node depends on, looking through unselected ones. -/
def Graph.nearestSelectedParents (graph : Graph) (selected : NameSet) (name : String) : NameSet :=
  let next := fun name => if name ∈ selected then [] else graph.parents name
  selected.filter fun other => (graph.walk next [] (graph.parents name)).contains other

namespace Queue

/-- The queue of the selected nodes of a graph. -/
def ofGraph (graph : Graph) (selected : NameSet) : Queue :=
  let chosen := selected.filter graph.contains
  let parents := NameMap.ofList (chosen.toList.map fun name =>
    (name, graph.nearestSelectedParents selected name))
  { nodes := parents.mapValues fun name found => .waiting name found.size
    children := .ofList (chosen.toList.map fun name =>
      (name, chosen.filter fun child => ((parents.get? child).getD .empty).contains name))
    ready := chosen.filter fun name => ((parents.get? name).getD .empty).isEmpty }

/-- The nodes that wait for a node. -/
def childrenOf (queue : Queue) (name : String) : List String :=
  match queue.children.get? name with
  | some children => children.toList
  | none => []

/-- Replace a node. -/
def setNode (queue : Queue) (name : String) (node : ScheduledNode) : Queue :=
  { queue with nodes := queue.nodes.insert name node }

/-- Take the least ready node and start it. -/
def popReady (queue : Queue) : Option String × Queue :=
  match queue.ready.popLeast? with
  | none => (none, queue)
  | some (name, ready) =>
    let queue := { queue with ready }
    match queue.nodes.get? name with
    | none => (none, queue)
    | some node =>
      match node.start .clock with
      | .error _ => (none, queue)
      | .ok node => (some name, queue.setNode name node)

/-- Let nodes wait for one parent less, apart from those that are done; those that become ready are
listed. -/
def release : List String → Queue → Except NodeError (List String) × Queue
  | [], queue => (.ok [], queue)
  | name :: names, queue =>
    match queue.nodes.get? name with
    | none => release names queue
    | some node =>
      if node.status.isTerminal then release names queue
      else
        match node.decrement with
        | .error error => (.error error, queue)
        | .ok node =>
          let queue := queue.setNode name node
          if node.isReady then
            let (result, queue) := release names { queue with ready := queue.ready.insert name }
            (result.map (name :: ·), queue)
          else release names queue

/-- The nodes that wait for a node, directly or through others, nearest first. -/
def descendants (queue : Queue) (name : String) : List String :=
  Walk.levels queue.childrenOf (queue.nodes.size + 1) [] (queue.childrenOf name)

/-- Skip the nodes of a list that have not started; those that are skipped are listed. -/
def skip : List String → Queue → Except NodeError (List String) × Queue
  | [], queue => (.ok [], queue)
  | name :: names, queue =>
    match queue.nodes.get? name with
    | none => skip names queue
    | some node =>
      if node.status ≠ .pending then skip names queue
      else
        match node.finish .skipped .clock with
        | .error error => (.error error, queue)
        | .ok node =>
          let queue := queue.setNode name node
          let (result, queue) := skip names { queue with ready := queue.ready.erase name }
          (result.map (name :: ·), queue)

/-- Mark a running node as done with a final status. -/
def markDone (queue : Queue) (name : String) (status : NodeStatus) :
    Except QueueError QueueUpdate × Queue :=
  match queue.nodes.get? name with
  | none => (.error (.unknownNode name), queue)
  | some node =>
    if node.status ≠ .running then (.error (.notRunning name), queue)
    else
      match node.finish status .clock with
      | .error error => (.error (.node error), queue)
      | .ok node =>
        let queue := queue.setNode name node
        match status with
        | .success =>
          let (result, queue) := release (queue.childrenOf name) queue
          ((result.map fun ready => ⟨ready, []⟩).mapError .node, queue)
        | _ =>
          let (result, queue) := skip (queue.descendants name) queue
          ((result.map fun names => ⟨[], names.map fun skipped => ⟨skipped, name⟩⟩).mapError .node,
            queue)

/-- Skip every node that has not started; they are listed in ascending order. -/
def skipRemaining (queue : Queue) : List String × Queue :=
  let skipped := (queue.nodes.entries.filter (·.2.status = .pending)).map (·.1)
  let nodes := queue.nodes.mapValues fun _ node =>
    if node.status = .pending then { node with status := .skipped, updated := .clock } else node
  (skipped, { queue with nodes, ready := .empty })

/-- Whether a node is ready. -/
def hasReady (queue : Queue) : Bool := !queue.ready.isEmpty

/-- The number of nodes with a status. -/
def count (queue : Queue) (status : NodeStatus) : Nat :=
  queue.nodes.values.countP (·.status = status)

/-- The number of running nodes. -/
def running (queue : Queue) : Nat := queue.count .running

/-- The number of nodes without a final status. -/
def remaining (queue : Queue) : Nat := queue.nodes.values.countP fun node => !node.status.isTerminal

/-- Whether every node has a final status. -/
def isFinished (queue : Queue) : Bool := queue.remaining = 0

end Queue

end SqlPipeline
