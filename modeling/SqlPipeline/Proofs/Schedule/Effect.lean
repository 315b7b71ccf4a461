import SqlPipeline.Proofs.Graph.Walk
import SqlPipeline.Schedule.Queue

/-!
# Effects of queue operations

Each operation of a queue is described once by what it changes: the nodes that it touches, the names
that it lists and the names that become or cease to be ready.  Everything else about a queue is
derived from these descriptions.
-/

namespace SqlPipeline

namespace NodeStatus

/-- A node with this status has been started, whatever became of it. -/
def hasStarted : NodeStatus → Bool
  | running | success | error => true
  | pending | skipped => false

/-- A node with this status is done without success. -/
def hasFailed : NodeStatus → Bool
  | error | skipped => true
  | pending | running | success => false

theorem isTerminal_of_hasFailed {status : NodeStatus} (failed : status.hasFailed = true) :
    status.isTerminal = true := by
  cases status <;> first | rfl | cases failed

end NodeStatus

namespace ScheduledNode

/-- The node once it runs. -/
def begun (node : ScheduledNode) : ScheduledNode :=
  { node with status := .running, updated := .clock, started := .clock }

/-- The node with a final status. -/
def ended (node : ScheduledNode) (status : NodeStatus) : ScheduledNode :=
  { node with status, updated := .clock }

/-- The node when it waits for one parent less, unless it is done. -/
def released (node : ScheduledNode) : ScheduledNode :=
  if node.status.isTerminal then node
  else { node with inDegree := node.inDegree - 1, updated := .clock }

/-- The node when everything that has not started is skipped. -/
def skipped (node : ScheduledNode) : ScheduledNode :=
  if node.status = .pending then node.ended .skipped else node

theorem isReady_iff {node : ScheduledNode} :
    node.isReady = true ↔ node.inDegree = 0 ∧ node.status = .pending := by
  simp [isReady]

@[simp]
theorem released_status (node : ScheduledNode) : node.released.status = node.status := by
  unfold released
  split <;> rfl

theorem skipped_status (node : ScheduledNode) :
    node.skipped.status = if node.status = .pending then .skipped else node.status := by
  unfold skipped
  split <;> rfl

theorem skipped_inDegree (node : ScheduledNode) : node.skipped.inDegree = node.inDegree := by
  unfold skipped
  split <;> rfl

end ScheduledNode

namespace Queue

variable {queue before after : Queue} {name : String} {names listed : List String}
  {status : NodeStatus}

/-- The status of a node of a queue. -/
def status? (queue : Queue) (name : String) : Option NodeStatus :=
  (queue.nodes.get? name).map (·.status)

theorem status?_eq_some_iff :
    queue.status? name = some status ↔
      ∃ node, queue.nodes.get? name = some node ∧ node.status = status := by
  simp [status?]

theorem get?_setNode (queue : Queue) (name other : String) (node : ScheduledNode) :
    (queue.setNode name node).nodes.get? other =
      if other = name then some node else queue.nodes.get? other :=
  NameMap.get?_insert _ _ _ _

/-! ## Lists of nodes -/

/-- The nodes of a list wait for one parent less, and those that become ready are listed. -/
structure Released (names : List String) (before : Queue) (listed : List String)
    (after : Queue) : Prop where
  children : after.children = before.children
  nodes : ∀ name, after.nodes.get? name =
    if name ∈ names then (before.nodes.get? name).map .released else before.nodes.get? name
  sublist : listed.Sublist names
  mem_listed : ∀ name, name ∈ listed ↔ name ∈ names ∧ ∃ node,
    before.nodes.get? name = some node ∧ node.status.isTerminal = false ∧
      node.released.isReady = true
  ready : ∀ name, name ∈ after.ready ↔ name ∈ before.ready ∨ name ∈ listed

/-- The nodes of a list that have not started are skipped, and they are listed. -/
structure Skipped (names : List String) (before : Queue) (listed : List String)
    (after : Queue) : Prop where
  children : after.children = before.children
  nodes : ∀ name, after.nodes.get? name =
    if name ∈ names then (before.nodes.get? name).map .skipped else before.nodes.get? name
  sublist : listed.Sublist names
  mem_listed : ∀ name, name ∈ listed ↔ name ∈ names ∧ before.status? name = some .pending
  ready : ∀ name, name ∈ after.ready ↔ name ∈ before.ready ∧ name ∉ listed

/-- A node in front of the list that is not there or is done stays as it is. -/
theorem Released.cons_of_done (effect : Released names before listed after)
    (done : ∀ node, before.nodes.get? name = some node → node.status.isTerminal = true) :
    Released (name :: names) before listed after where
  children := effect.children
  nodes other := by
    rw [effect.nodes other]
    by_cases same : other = name
    · subst same
      have fixed : (before.nodes.get? other).map .released = before.nodes.get? other := by
        cases found : before.nodes.get? other with
        | none => rfl
        | some node => simp [ScheduledNode.released, done node found]
      simp [fixed]
    · simp [same]
  sublist := effect.sublist.cons name
  mem_listed other := by
    rw [effect.mem_listed other, List.mem_cons]
    constructor
    · rintro ⟨member, node, found, open_, ready⟩
      exact ⟨.inr member, node, found, open_, ready⟩
    · rintro ⟨rfl | member, node, found, open_, ready⟩
      · exact absurd (done node found) (by simp [open_])
      · exact ⟨member, node, found, open_, ready⟩
  ready := effect.ready

/-- The queue when one of its nodes waits for one parent less. -/
def releaseNode (queue : Queue) (name : String) (node : ScheduledNode) : Queue :=
  { queue.setNode name node.released with
    ready := if node.released.isReady then queue.ready.insert name else queue.ready }

theorem release_cons_of_open {node : ScheduledNode} (found : queue.nodes.get? name = some node)
    (unfinished : node.status.isTerminal = false) (waits : node.inDegree ≠ 0)
    (run : release names (queue.releaseNode name node) = (.ok listed, after)) :
    release (name :: names) queue =
      (.ok (if node.released.isReady then name :: listed else listed), after) := by
  obtain ⟨degree, positive⟩ := Nat.exists_eq_succ_of_ne_zero waits
  have decremented : node.decrement = .ok node.released := by
    simp [ScheduledNode.decrement, ScheduledNode.released, positive, unfinished]
  rw [release, found]
  simp only [unfinished, decremented, Bool.false_eq_true, if_false]
  unfold releaseNode at run
  cases becomes : node.released.isReady with
  | true =>
    simp only [becomes, if_true] at run
    simp only [if_true, setNode] at run ⊢
    rw [run]
    rfl
  | false =>
    simp only [becomes, Bool.false_eq_true, if_false] at run ⊢
    exact run

theorem Released.cons_of_open {node : ScheduledNode} (absent : name ∉ names)
    (found : before.nodes.get? name = some node) (unfinished : node.status.isTerminal = false)
    (effect : Released names (before.releaseNode name node) listed after) :
    Released (name :: names) before
      (if node.released.isReady then name :: listed else listed) after := by
  have unlisted : name ∉ listed := fun member => absent (effect.sublist.subset member)
  have nodes : ∀ other, (before.releaseNode name node).nodes.get? other =
      if other = name then some node.released else before.nodes.get? other :=
    fun other => get?_setNode before name other _
  have mem_listed : ∀ other,
      other ∈ (if node.released.isReady then name :: listed else listed) ↔
        other = name ∧ node.released.isReady = true ∨ other ∈ listed := by
    intro other
    split <;> simp_all
  refine ⟨effect.children, fun other => ?_, ?_, fun other => ?_, fun other => ?_⟩
  · rw [effect.nodes other, nodes other]
    by_cases same : other = name
    · subst same
      simp [absent, found]
    · simp [same]
  · split
    · exact effect.sublist.cons_cons name
    · exact effect.sublist.cons name
  · rw [mem_listed other, effect.mem_listed other, nodes other]
    by_cases same : other = name
    · subst same
      simp [absent, found, unfinished]
    · simp [same]
  · rw [mem_listed other, effect.ready other]
    have ready : other ∈ (before.releaseNode name node).ready ↔
        other ∈ before.ready ∨ other = name ∧ node.released.isReady = true := by
      unfold releaseNode
      split
      next becomes => rw [NameSet.mem_insert]; simp [becomes, or_comm]
      next waits => simp [waits]
    rw [ready, or_assoc]

/-- Releasing succeeds when every node of the list that is not done waits for some parent. -/
theorem exists_released (queue : Queue) (nodup : names.Nodup)
    (waiting : ∀ name ∈ names, ∀ node, queue.nodes.get? name = some node →
      node.status.isTerminal = false → node.inDegree ≠ 0) :
    ∃ listed after, release names queue = (.ok listed, after) ∧
      Released names queue listed after := by
  induction names generalizing queue with
  | nil => exact ⟨[], queue, rfl, rfl, by simp, .slnil, by simp, by simp⟩
  | cons name names ih =>
    obtain ⟨absent, rest⟩ := List.nodup_cons.mp nodup
    have waitingRest := fun other member => waiting other (List.mem_cons_of_mem name member)
    cases found : queue.nodes.get? name with
    | none =>
      obtain ⟨listed, after, run, effect⟩ := ih queue rest waitingRest
      refine ⟨listed, after, by simp [release, found, run], effect.cons_of_done ?_⟩
      simp [found]
    | some node =>
      cases done : node.status.isTerminal with
      | true =>
        obtain ⟨listed, after, run, effect⟩ := ih queue rest waitingRest
        refine ⟨listed, after, by simp [release, found, done, run], effect.cons_of_done ?_⟩
        simp [found, done]
      | false =>
        obtain ⟨listed, after, run, effect⟩ := ih (queue.releaseNode name node) rest (by
          intro child member childNode held
          have different : child ≠ name := fun same => absent (same ▸ member)
          rw [releaseNode, get?_setNode, if_neg different] at held
          exact waitingRest child member childNode held)
        have waits := waiting name List.mem_cons_self node found done
        exact ⟨_, after, release_cons_of_open found done waits run,
          effect.cons_of_open absent found done⟩

/-- A node in front of the list that is not waiting to start stays as it is. -/
theorem Skipped.cons_of_started (effect : Skipped names before listed after)
    (started : before.status? name ≠ some .pending) :
    Skipped (name :: names) before listed after where
  children := effect.children
  nodes other := by
    rw [effect.nodes other]
    by_cases same : other = name
    · subst same
      have fixed : (before.nodes.get? other).map .skipped = before.nodes.get? other := by
        cases found : before.nodes.get? other with
        | none => rfl
        | some node =>
          have past : node.status ≠ .pending := by simpa [status?, found] using started
          simp [ScheduledNode.skipped, past]
      simp [fixed]
    · simp [same]
  sublist := effect.sublist.cons name
  mem_listed other := by
    rw [effect.mem_listed other, List.mem_cons]
    constructor
    · rintro ⟨member, pending⟩
      exact ⟨.inr member, pending⟩
    · rintro ⟨rfl | member, pending⟩
      · exact absurd pending started
      · exact ⟨member, pending⟩
  ready := effect.ready

/-- The queue when one of its nodes is skipped. -/
def skipNode (queue : Queue) (name : String) (node : ScheduledNode) : Queue :=
  { queue.setNode name (node.ended .skipped) with ready := queue.ready.erase name }

theorem Skipped.cons_of_pending {node : ScheduledNode} (absent : name ∉ names)
    (found : before.nodes.get? name = some node) (pending : node.status = .pending)
    (effect : Skipped names (before.skipNode name node) listed after) :
    Skipped (name :: names) before (name :: listed) after := by
  have unlisted : name ∉ listed := fun member => absent (effect.sublist.subset member)
  have nodes : ∀ other, (before.skipNode name node).nodes.get? other =
      if other = name then some (node.ended .skipped) else before.nodes.get? other :=
    fun other => get?_setNode before name other _
  refine ⟨effect.children, fun other => ?_, effect.sublist.cons_cons name, fun other => ?_,
    fun other => ?_⟩
  · rw [effect.nodes other, nodes other]
    by_cases same : other = name
    · subst same
      simp [absent, found, ScheduledNode.skipped, pending]
    · simp [same]
  · rw [List.mem_cons, List.mem_cons, effect.mem_listed other]
    by_cases same : other = name
    · subst same
      simp [status?, found, pending]
    · simp [status?, nodes, same]
  · rw [effect.ready other, skipNode, NameSet.mem_erase, List.mem_cons, not_or, and_assoc]

/-- Skipping never fails. -/
theorem exists_skipped (queue : Queue) (nodup : names.Nodup) :
    ∃ listed after, skip names queue = (.ok listed, after) ∧
      Skipped names queue listed after := by
  induction names generalizing queue with
  | nil => exact ⟨[], queue, rfl, rfl, by simp, .slnil, by simp, by simp⟩
  | cons name names ih =>
    obtain ⟨absent, rest⟩ := List.nodup_cons.mp nodup
    cases found : queue.nodes.get? name with
    | none =>
      obtain ⟨listed, after, run, effect⟩ := ih queue rest
      refine ⟨listed, after, by simp [skip, found, run], effect.cons_of_started ?_⟩
      simp [status?, found]
    | some node =>
      by_cases pending : node.status = .pending
      · obtain ⟨listed, after, run, effect⟩ := ih (queue.skipNode name node) rest
        refine ⟨name :: listed, after, ?_, effect.cons_of_pending absent found pending⟩
        have finished : node.finish .skipped .clock = .ok (node.ended .skipped) := by
          simp [ScheduledNode.finish, ScheduledNode.ended, NodeStatus.isTerminal, pending]
        simp only [skip, found, pending, finished]
        unfold skipNode at run
        simp only [ne_eq, not_true_eq_false, if_false]
        simp only [setNode] at run ⊢
        rw [run]
        rfl
      · obtain ⟨listed, after, run, effect⟩ := ih queue rest
        refine ⟨listed, after, by simp [skip, found, pending, run], effect.cons_of_started ?_⟩
        simp [status?, found, pending]

theorem skipRemaining_skipped
    (pending : ∀ name ∈ queue.ready, queue.status? name = some .pending) :
    Skipped queue.nodes.keys queue queue.skipRemaining.1 queue.skipRemaining.2 where
  children := rfl
  nodes name := by
    have mapped : queue.skipRemaining.2.nodes.get? name =
        (queue.nodes.get? name).map .skipped := by
      simp only [skipRemaining, NameMap.get?_mapValues]
      rfl
    rw [mapped]
    split
    · rfl
    next absent =>
      cases found : queue.nodes.get? name with
      | none => rfl
      | some node => exact absurd (NameMap.mem_keys.mpr ⟨node, found⟩) absent
  sublist := List.filter_sublist.map _
  mem_listed name := by
    simp only [skipRemaining, List.mem_map, List.mem_filter, decide_eq_true_eq,
      status?_eq_some_iff, NameMap.mem_keys, NameMap.get?_eq_some_iff]
    constructor
    · rintro ⟨⟨_, node⟩, ⟨member, waits⟩, rfl⟩
      exact ⟨⟨node, member⟩, node, member, waits⟩
    · rintro ⟨-, node, member, waits⟩
      exact ⟨(name, node), ⟨member, waits⟩, rfl⟩
  ready name := by
    have listed : name ∈ queue.ready → name ∈ queue.skipRemaining.1 := by
      intro member
      obtain ⟨node, found, waits⟩ := status?_eq_some_iff.mp (pending name member)
      simp only [skipRemaining, List.mem_map, List.mem_filter, decide_eq_true_eq]
      exact ⟨(name, node), ⟨NameMap.get?_eq_some_iff.mp found, waits⟩, rfl⟩
    have nothing : name ∉ queue.skipRemaining.2.ready := NameSet.mem_empty.mp
    exact ⟨fun member => absurd member nothing, fun ⟨member, unlisted⟩ =>
      absurd (listed member) unlisted⟩

/-! ## Single nodes -/

/-- The least ready node is started. -/
structure Popped (before : Queue) (name : String) (node : ScheduledNode) (after : Queue) :
    Prop where
  children : after.children = before.children
  member : name ∈ before.ready
  least : ∀ other ∈ before.ready, name ≤ other
  found : before.nodes.get? name = some node
  isReady : node.isReady = true
  nodes : ∀ other, after.nodes.get? other =
    if other = name then some node.begun else before.nodes.get? other
  ready : ∀ other, other ∈ after.ready ↔ other ∈ before.ready ∧ other ≠ name

theorem popReady_of_empty (empty : ∀ name, name ∉ queue.ready) :
    queue.popReady = (none, queue) := by
  rw [popReady, NameSet.popLeast?_eq_none_iff.mpr empty]

/-- A node is popped whenever one is ready, provided that ready nodes can start. -/
theorem exists_popped (member : name ∈ queue.ready)
    (startable : ∀ name ∈ queue.ready, ∃ node, queue.nodes.get? name = some node ∧
      node.isReady = true) :
    ∃ name node after, queue.popReady = (some name, after) ∧ Popped queue name node after := by
  cases popped : queue.ready.popLeast? with
  | none => exact absurd member (NameSet.popLeast?_eq_none_iff.mp popped name)
  | some entry =>
    obtain ⟨least, rest⟩ := entry
    obtain ⟨inside, below, others⟩ := NameSet.popLeast?_eq_some popped
    obtain ⟨node, found, isReady⟩ := startable least inside
    have started : node.start .clock = .ok node.begun := by
      simp [ScheduledNode.start, ScheduledNode.begun, isReady]
    refine ⟨least, node, ({ queue with ready := rest }).setNode least node.begun, ?_, rfl, inside,
      below, found, isReady, fun other => get?_setNode _ least other _, others⟩
    simp [popReady, popped, found, started]

theorem markDone_of_absent (absent : queue.nodes.get? name = none) (status : NodeStatus) :
    queue.markDone name status = (.error (.unknownNode name), queue) := by
  simp [markDone, absent]

theorem markDone_of_not_running {node : ScheduledNode} (found : queue.nodes.get? name = some node)
    (resting : node.status ≠ .running) (status : NodeStatus) :
    queue.markDone name status = (.error (.notRunning name), queue) := by
  simp [markDone, found, resting]

theorem markDone_of_not_final {node : ScheduledNode} (found : queue.nodes.get? name = some node)
    (running : node.status = .running) (unfinished : status.isTerminal = false) :
    queue.markDone name status =
      (.error (.node (.invalidTransition node.name .running status)), queue) := by
  simp [markDone, found, running, ScheduledNode.finish, unfinished]

/-- A running node succeeds and releases its children. -/
structure Succeeded (before : Queue) (name : String) (node : ScheduledNode) (listed : List String)
    (after : Queue) : Prop where
  found : before.nodes.get? name = some node
  running : node.status = .running
  released : Released (before.childrenOf name) (before.setNode name (node.ended .success)) listed
    after

/-- A running node ends without success, and its descendants are skipped. -/
structure Failed (before : Queue) (name : String) (node : ScheduledNode) (status : NodeStatus)
    (listed : List String) (after : Queue) : Prop where
  found : before.nodes.get? name = some node
  running : node.status = .running
  hasFailed : status.hasFailed = true
  skipped : Skipped ((before.setNode name (node.ended status)).descendants name)
    (before.setNode name (node.ended status)) listed after

theorem finish_of_running {node : ScheduledNode} (running : node.status = .running)
    (final : status.isTerminal = true) : node.finish status .clock = .ok (node.ended status) := by
  have unfinished : node.status.isTerminal = false := by rw [running]; rfl
  simp [ScheduledNode.finish, ScheduledNode.ended, final, unfinished]

theorem nodup_childrenOf (queue : Queue) (name : String) : (queue.childrenOf name).Nodup := by
  unfold childrenOf
  split
  · exact NameSet.nodup_toList _
  · exact List.nodup_nil

/-- A node that succeeds releases its children, provided that they wait for it. -/
theorem exists_markDone_success {node : ScheduledNode} (found : queue.nodes.get? name = some node)
    (running : node.status = .running)
    (waiting : ∀ child ∈ queue.childrenOf name, ∀ childNode,
      queue.nodes.get? child = some childNode → childNode.status.isTerminal = false →
        childNode.inDegree ≠ 0) :
    ∃ listed after, queue.markDone name .success = (.ok ⟨listed, []⟩, after) ∧
      Succeeded queue name node listed after := by
  obtain ⟨listed, after, run, effect⟩ :=
    exists_released (queue.setNode name (node.ended .success)) (nodup_childrenOf queue name) (by
      intro child member childNode held unfinished
      rw [get?_setNode] at held
      split at held
      · cases held
        cases unfinished
      · exact waiting child member childNode held unfinished)
  refine ⟨listed, after, ?_, found, running, effect⟩
  have finished : node.finish .success .clock = .ok (node.ended .success) :=
    finish_of_running running rfl
  have children : (queue.setNode name (node.ended .success)).childrenOf name =
      queue.childrenOf name := rfl
  simp [markDone, found, running, finished, children, run, Except.map, Except.mapError]

theorem nodup_descendants (queue : Queue) (name : String) : (queue.descendants name).Nodup :=
  Walk.nodup_levels _ _ _ _

/-- A node that fails makes its descendants skipped. -/
theorem exists_markDone_failure {node : ScheduledNode} (found : queue.nodes.get? name = some node)
    (running : node.status = .running) (failed : status.hasFailed = true) :
    ∃ listed after,
      queue.markDone name status =
        (.ok ⟨[], listed.map fun skipped => ⟨skipped, name⟩⟩, after) ∧
      Failed queue name node status listed after := by
  obtain ⟨listed, after, run, effect⟩ :=
    exists_skipped (queue.setNode name (node.ended status))
      (nodup_descendants (queue.setNode name (node.ended status)) name)
  refine ⟨listed, after, ?_, found, running, failed, effect⟩
  have finished := finish_of_running running (NodeStatus.isTerminal_of_hasFailed failed)
  cases status with
  | error | skipped =>
    simp [markDone, found, running, finished, run, Except.map, Except.mapError]
  | pending | running | success => cases failed

end Queue
end SqlPipeline
