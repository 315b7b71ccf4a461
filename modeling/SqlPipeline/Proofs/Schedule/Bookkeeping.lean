import SqlPipeline.Proofs.Graph.Contraction
import SqlPipeline.Proofs.Schedule.Effect

/-!
# The bookkeeping of a queue

A queue tracks the selected nodes of a graph: every node that has not started counts the nearest
selected parents that have not succeeded, the ready nodes are those that wait for none, and no node
has started before its nearest selected parents have succeeded.  Every operation keeps this, in
whatever order the operations come.
-/

namespace SqlPipeline
namespace Queue

/-- How many of the nearest selected parents of a node have not succeeded. -/
def awaited (queue : Queue) (graph : Graph) (selected : NameSet) (name : String) : Nat :=
  (graph.nearestSelectedParents selected name).toList.countP fun parent =>
    queue.status? parent ≠ some .success

/-- What the parts of a queue say about each other and about the graph. -/
structure Tracks (queue : Queue) (graph : Graph) (selected : NameSet) : Prop where
  /-- The queue holds the selected nodes of the graph. -/
  holds : ∀ name, (∃ node, queue.nodes.get? name = some node) ↔
    name ∈ selected ∧ name ∈ graph.nodes
  children : ∀ parent child, child ∈ queue.childrenOf parent ↔
    graph.Feeds selected parent child ∧ child ∈ selected
  degree : ∀ name node, queue.nodes.get? name = some node → node.status = .pending →
    node.inDegree = queue.awaited graph selected name
  ready : ∀ name, name ∈ queue.ready ↔
    ∃ node, queue.nodes.get? name = some node ∧ node.isReady = true
  started : ∀ name node, queue.nodes.get? name = some node → node.status.hasStarted = true →
    ∀ parent, graph.Feeds selected parent name → queue.status? parent = some .success

variable {graph : Graph} {selected : NameSet} {queue before after : Queue}
  {name other parent : String} {names listed : List String} {node : ScheduledNode}
  {status : NodeStatus}

/-! ## Counting parents -/

theorem awaited_congr
    (same : ∀ name, after.status? name = some .success ↔ before.status? name = some .success)
    (name : String) : after.awaited graph selected name = before.awaited graph selected name := by
  simp only [awaited, ne_eq, same]

theorem awaited_eq_zero_iff :
    queue.awaited graph selected name = 0 ↔
      ∀ parent, graph.Feeds selected parent name → queue.status? parent = some .success := by
  simp [awaited, List.countP_eq_zero, Graph.Feeds]

/-- Of the members of a list without repetitions, one fewer satisfies a test that drops one. -/
theorem countP_succ_of_dropped {names : List String} (nodup : names.Nodup) (member : name ∈ names)
    {earlier later : String → Bool} (held : earlier name = true) (dropped : later name = false)
    (same : ∀ other, other ≠ name → later other = earlier other) :
    names.countP later + 1 = names.countP earlier := by
  induction names with
  | nil => cases member
  | cons head tail ih =>
    obtain ⟨absent, rest⟩ := List.nodup_cons.mp nodup
    rw [List.countP_cons, List.countP_cons]
    by_cases here : head = name
    · subst here
      have unchanged : tail.countP later = tail.countP earlier := by
        refine List.countP_congr fun other later => ?_
        rw [same other fun equal => absent (equal ▸ later)]
      simp [held, dropped, unchanged]
    · have later := ih rest ((List.mem_cons.mp member).resolve_left (Ne.symm here))
      rw [same head here]
      omega

/-- A node waits for one parent less when one of its parents succeeds. -/
theorem awaited_succ_of_success (feeds : graph.Feeds selected name other)
    (earlier : before.status? name ≠ some .success) (later : after.status? name = some .success)
    (same : ∀ other, other ≠ name → after.status? other = before.status? other) :
    after.awaited graph selected other + 1 = before.awaited graph selected other := by
  refine countP_succ_of_dropped (NameSet.nodup_toList _) feeds ?_ ?_ ?_
  · simpa using earlier
  · simpa using later
  · intro parent different
    rw [same parent different]

theorem awaited_of_not_feeds (apart : ¬ graph.Feeds selected name other)
    (same : ∀ other, other ≠ name → after.status? other = before.status? other) :
    after.awaited graph selected other = before.awaited graph selected other := by
  refine List.countP_congr fun parent member => ?_
  have different : parent ≠ name := by
    rintro rfl
    exact apart member
  rw [same parent different]

/-! ## Statuses after an operation -/

theorem childrenOf_congr (same : after.children = before.children) (name : String) :
    after.childrenOf name = before.childrenOf name := by
  simp only [childrenOf, same]

theorem status?_setNode (queue : Queue) (name other : String) (node : ScheduledNode) :
    (queue.setNode name node).status? other =
      if other = name then some node.status else queue.status? other := by
  simp only [status?, get?_setNode]
  split <;> rfl

theorem status?_of_get? (found : queue.nodes.get? name = some node) :
    queue.status? name = some node.status := by
  simp [status?, found]

theorem Popped.status? (effect : Popped before name node after) (other : String) :
    after.status? other = if other = name then some .running else before.status? other := by
  simp only [Queue.status?, effect.nodes]
  split <;> rfl

theorem Released.status? (effect : Released names before listed after) (other : String) :
    after.status? other = before.status? other := by
  simp only [Queue.status?, effect.nodes]
  split
  · cases before.nodes.get? other <;> simp
  · rfl

theorem Skipped.status? (effect : Skipped names before listed after) (other : String) :
    after.status? other = if other ∈ listed then some .skipped else before.status? other := by
  simp only [Queue.status?, effect.nodes, effect.mem_listed]
  by_cases member : other ∈ names
  · simp only [member, if_true, true_and]
    cases before.nodes.get? other with
    | none => simp
    | some node =>
      by_cases pending : node.status = .pending <;>
        simp [pending, ScheduledNode.skipped_status]
  · simp [member]

theorem Skipped.success_iff (effect : Skipped names before listed after) (name : String) :
    after.status? name = some .success ↔ before.status? name = some .success := by
  rw [effect.status?]
  split
  next member => simp [((effect.mem_listed name).mp member).2]
  next => rfl

/-! ## Every operation keeps the books -/

theorem Tracks.status?_ne_none (tracks : queue.Tracks graph selected) (member : name ∈ selected)
    (inside : name ∈ graph.nodes) : ∃ status, queue.status? name = some status := by
  obtain ⟨node, found⟩ := (tracks.holds name).mpr ⟨member, inside⟩
  exact ⟨node.status, status?_of_get? found⟩

theorem ofGraph_get? (graph : Graph) (selected : NameSet) (name : String) :
    (ofGraph graph selected).nodes.get? name =
      if name ∈ selected ∧ name ∈ graph.nodes then
        some (.waiting name (graph.nearestSelectedParents selected name).size)
      else none := by
  simp only [ofGraph, NameMap.get?_mapValues, NameMap.get?_ofList_map, NameSet.mem_toList,
    NameSet.mem_filter, Graph.contains_iff]
  split <;> rfl

theorem ofGraph_mem_childrenOf {child : String} :
    child ∈ (ofGraph graph selected).childrenOf parent ↔
      graph.Feeds selected parent child ∧ child ∈ selected := by
  have listed : child ∈ (ofGraph graph selected).childrenOf parent ↔
      (parent ∈ selected ∧ parent ∈ graph.nodes) ∧ (child ∈ selected ∧ child ∈ graph.nodes) ∧
        graph.Feeds selected parent child := by
    simp only [childrenOf, ofGraph, NameMap.get?_ofList_map, NameSet.mem_toList,
      NameSet.mem_filter, Graph.contains_iff, Graph.Feeds]
    by_cases chosen : parent ∈ selected ∧ parent ∈ graph.nodes
    · by_cases waits : child ∈ selected ∧ child ∈ graph.nodes
      · simp [chosen, waits]
      · simp [chosen, waits]
    · simp [chosen]
  rw [listed]
  constructor
  · rintro ⟨-, ⟨member, -⟩, feeds⟩
    exact ⟨feeds, member⟩
  · rintro ⟨feeds, member⟩
    exact ⟨⟨feeds.mem_selected, feeds.mem_nodes.1⟩, ⟨member, feeds.mem_nodes.2⟩, feeds⟩

theorem ofGraph_mem_ready :
    name ∈ (ofGraph graph selected).ready ↔
      (name ∈ selected ∧ name ∈ graph.nodes) ∧
        (graph.nearestSelectedParents selected name).isEmpty = true := by
  simp only [ofGraph, NameMap.get?_ofList_map, NameSet.mem_toList, NameSet.mem_filter,
    Graph.contains_iff]
  by_cases chosen : name ∈ selected ∧ name ∈ graph.nodes <;> simp [chosen]

theorem ofGraph_status? {name : String} {status : NodeStatus}
    (held : (ofGraph graph selected).status? name = some status) : status = .pending := by
  obtain ⟨node, found, rfl⟩ := status?_eq_some_iff.mp held
  rw [ofGraph_get?] at found
  split at found <;> cases found
  rfl

theorem tracks_ofGraph (graph : Graph) (selected : NameSet) :
    (ofGraph graph selected).Tracks graph selected where
  holds name := by
    rw [ofGraph_get?]
    split
    next chosen => simp [chosen]
    next left_out => simp [left_out]
  children _ _ := ofGraph_mem_childrenOf
  degree name node found _ := by
    have size : node.inDegree = (graph.nearestSelectedParents selected name).toList.length := by
      rw [ofGraph_get?] at found
      split at found <;> cases found
      rfl
    rw [size, awaited, eq_comm, List.countP_eq_length]
    intro parent _
    rw [decide_eq_true_iff]
    intro success
    cases ofGraph_status? success
  ready name := by
    rw [ofGraph_mem_ready, ofGraph_get?]
    by_cases chosen : name ∈ selected ∧ name ∈ graph.nodes
    · simp [chosen, ScheduledNode.isReady_iff, ScheduledNode.waiting, NameSet.isEmpty,
        NameSet.size, List.isEmpty_iff]
    · simp [chosen]
  started name node found begun := by
    have pending := ofGraph_status? (status?_of_get? found)
    rw [pending] at begun
    cases begun

theorem Tracks.status?_of_ready (tracks : queue.Tracks graph selected)
    (member : name ∈ queue.ready) : queue.status? name = some .pending := by
  obtain ⟨node, found, isReady⟩ := (tracks.ready name).mp member
  rw [status?_of_get? found, (ScheduledNode.isReady_iff.mp isReady).2]

theorem Tracks.popped (tracks : before.Tracks graph selected)
    (effect : Popped before name node after) : after.Tracks graph selected := by
  obtain ⟨degree, pending⟩ := ScheduledNode.isReady_iff.mp effect.isReady
  have success : ∀ other, after.status? other = some .success ↔
      before.status? other = some .success := by
    intro other
    rw [effect.status?]
    split
    next same => simp [same, status?_of_get? effect.found, pending]
    next => rfl
  have awaited : ∀ other, after.awaited graph selected other =
      before.awaited graph selected other := awaited_congr success
  refine ⟨fun other => ?_, fun parent child => ?_, fun other otherNode found waits => ?_,
    fun other => ?_, fun other otherNode found begun parent feeds => ?_⟩
  · rw [← tracks.holds other, effect.nodes other]
    split
    next same => simp [same, effect.found]
    next => rfl
  · rw [childrenOf_congr effect.children]
    exact tracks.children parent child
  · rw [effect.nodes other] at found
    split at found
    · cases found
      cases waits
    · rw [awaited other]
      exact tracks.degree other otherNode found waits
  · rw [effect.ready other, effect.nodes other, tracks.ready other]
    by_cases same : other = name
    · simp [same, ScheduledNode.isReady, ScheduledNode.begun]
    · simp [same]
  · rw [success parent]
    rw [effect.nodes other] at found
    split at found
    next same =>
      subst same
      have zero := (tracks.degree other node effect.found pending).symm.trans degree
      exact awaited_eq_zero_iff.mp zero parent feeds
    next => exact tracks.started other otherNode found begun parent feeds

/-- Whatever is skipped, the books stay right. -/
theorem Tracks.skipped (tracks : before.Tracks graph selected)
    (effect : Skipped names before listed after) : after.Tracks graph selected := by
  refine ⟨fun other => ?_, fun parent child => ?_, fun other otherNode found waits => ?_,
    fun other => ?_, fun other otherNode found begun parent feeds => ?_⟩
  · rw [← tracks.holds other, effect.nodes other]
    split
    · cases before.nodes.get? other <;> simp
    · rfl
  · rw [childrenOf_congr effect.children]
    exact tracks.children parent child
  · rw [awaited_congr effect.success_iff]
    rw [effect.nodes other] at found
    split at found
    · obtain ⟨old, held, rfl⟩ := Option.map_eq_some_iff.mp found
      rw [ScheduledNode.skipped_status] at waits
      split at waits
      · cases waits
      next past => exact absurd waits past
    · exact tracks.degree other otherNode found waits
  · rw [effect.ready other, effect.mem_listed other, effect.nodes other, tracks.ready other]
    by_cases member : other ∈ names
    · cases found : before.nodes.get? other with
      | none => simp
      | some old =>
        by_cases pending : old.status = .pending <;>
          simp [member, status?_of_get? found, pending, ScheduledNode.isReady_iff,
            ScheduledNode.skipped_status]
    · simp [member]
  · rw [effect.success_iff parent]
    rw [effect.nodes other] at found
    split at found
    · obtain ⟨old, held, rfl⟩ := Option.map_eq_some_iff.mp found
      rw [ScheduledNode.skipped_status] at begun
      split at begun
      · cases begun
      · exact tracks.started other old held begun parent feeds
    · exact tracks.started other otherNode found begun parent feeds

/-- A running node that ends without success changes what no other node waits for. -/
theorem Tracks.failed (tracks : queue.Tracks graph selected)
    (found : queue.nodes.get? name = some node) (running : node.status = .running)
    (failed : status.hasFailed = true) :
    (queue.setNode name (node.ended status)).Tracks graph selected := by
  have success : ∀ other, (queue.setNode name (node.ended status)).status? other = some .success ↔
      queue.status? other = some .success := by
    intro other
    rw [status?_setNode]
    split
    next same =>
      have different : status ≠ .success := by
        rintro rfl
        cases failed
      simp [same, status?_of_get? found, running, ScheduledNode.ended, different]
    next => rfl
  refine ⟨fun other => ?_, fun parent child => tracks.children parent child,
    fun other otherNode held waits => ?_, fun other => ?_,
    fun other otherNode held begun parent feeds => ?_⟩
  · rw [← tracks.holds other, get?_setNode]
    split
    next same => simp [same, found]
    next => rfl
  · rw [awaited_congr success]
    rw [get?_setNode] at held
    split at held
    · cases held
      rw [show status = .pending from waits] at failed
      cases failed
    · exact tracks.degree other otherNode held waits
  · rw [get?_setNode]
    refine (tracks.ready other).trans ?_
    split
    next same =>
      have pending : (node.ended status).status ≠ .pending := by
        intro waits
        rw [show status = .pending from waits] at failed
        cases failed
      simp [same, found, running, ScheduledNode.isReady_iff, pending]
    next => rfl
  · rw [success parent]
    rw [get?_setNode] at held
    split at held
    next same =>
      subst same
      exact tracks.started other node found (by rw [running]; rfl) parent feeds
    next => exact tracks.started other otherNode held begun parent feeds

/-- While a node runs, none of its children has started, and each of them waits for it. -/
theorem Tracks.waits_of_running (tracks : queue.Tracks graph selected)
    (running : queue.status? name = some .running) (feeds : graph.Feeds selected name other)
    (found : queue.nodes.get? other = some node) (unfinished : node.status.isTerminal = false) :
    node.status = .pending ∧ node.inDegree = queue.awaited graph selected other ∧
      node.inDegree ≠ 0 := by
  have waits : node.status = .pending := by
    cases begun : node.status.hasStarted with
    | true =>
      have success := tracks.started other node found begun name feeds
      rw [running] at success
      cases success
    | false => revert begun unfinished; cases node.status <;> simp [NodeStatus.hasStarted,
        NodeStatus.isTerminal]
  have degree := tracks.degree other node found waits
  refine ⟨waits, degree, fun zero => ?_⟩
  have success := awaited_eq_zero_iff.mp (degree.symm.trans zero) name feeds
  rw [running] at success
  cases success

theorem Tracks.not_feeds_self (tracks : queue.Tracks graph selected)
    (running : queue.status? name = some .running) : ¬ graph.Feeds selected name name := by
  intro feeds
  obtain ⟨node, found, runs⟩ := status?_eq_some_iff.mp running
  have success := tracks.started name node found (by rw [runs]; rfl) name feeds
  rw [running] at success
  cases success

namespace Succeeded

theorem status?_before (effect : Succeeded before name node listed after) :
    before.status? name = some .running := by
  rw [status?_of_get? effect.found, effect.running]

theorem status? (effect : Succeeded before name node listed after) (other : String) :
    after.status? other = if other = name then some .success else before.status? other := by
  rw [effect.released.status?, status?_setNode]
  rfl

theorem status?_of_success (effect : Succeeded before name node listed after)
    (earlier : before.status? other = some .success) : after.status? other = some .success := by
  rw [effect.status?]
  split
  · rfl
  · exact earlier

theorem get?_of_ne (effect : Succeeded before name node listed after) (different : other ≠ name) :
    after.nodes.get? other =
      if other ∈ before.childrenOf name then (before.nodes.get? other).map .released
      else before.nodes.get? other := by
  rw [effect.released.nodes other, get?_setNode, if_neg different]

theorem get?_self (tracks : before.Tracks graph selected)
    (effect : Succeeded before name node listed after) :
    after.nodes.get? name = some (node.ended .success) := by
  have loopless := tracks.not_feeds_self effect.status?_before
  rw [effect.released.nodes name, get?_setNode, if_pos rfl, if_neg]
  exact fun child => loopless ((tracks.children name name).mp child).1

theorem degree (tracks : before.Tracks graph selected)
    (effect : Succeeded before name node listed after) {otherNode : ScheduledNode}
    (held : after.nodes.get? other = some otherNode) (waits : otherNode.status = .pending) :
    otherNode.inDegree = after.awaited graph selected other := by
  have different : other ≠ name := by
    rintro rfl
    rw [effect.get?_self tracks] at held
    cases held
    cases waits
  have same : ∀ other, other ≠ name → after.status? other = before.status? other :=
    fun other different => by rw [effect.status?, if_neg different]
  rw [effect.get?_of_ne different] at held
  split at held
  next child =>
    obtain ⟨old, oldHeld, rfl⟩ := Option.map_eq_some_iff.mp held
    have feeds := ((tracks.children name other).mp child).1
    rw [ScheduledNode.released_status] at waits
    have unfinished : old.status.isTerminal = false := by rw [waits]; rfl
    obtain ⟨-, degree, positive⟩ :=
      tracks.waits_of_running effect.status?_before feeds oldHeld unfinished
    have fewer : after.awaited graph selected other + 1 = before.awaited graph selected other := by
      refine awaited_succ_of_success feeds ?_ ?_ same
      · rw [effect.status?_before]
        exact fun success => nomatch success
      · rw [effect.status?, if_pos rfl]
    simp only [ScheduledNode.released, unfinished, Bool.false_eq_true, if_false]
    omega
  next stranger =>
    have member := ((tracks.holds other).mp ⟨otherNode, held⟩).1
    have apart : ¬ graph.Feeds selected name other := fun feeds =>
      stranger ((tracks.children name other).mpr ⟨feeds, member⟩)
    rw [awaited_of_not_feeds apart same]
    exact tracks.degree other otherNode held waits

/-- The nodes that are listed are those that become ready. -/
theorem mem_listed (tracks : before.Tracks graph selected)
    (effect : Succeeded before name node listed after) :
    other ∈ listed ↔ other ∈ before.childrenOf name ∧
      ∃ otherNode, after.nodes.get? other = some otherNode ∧ otherNode.isReady = true := by
  rw [effect.released.mem_listed other]
  refine and_congr_right fun child => ?_
  have different : other ≠ name := by
    rintro rfl
    exact tracks.not_feeds_self effect.status?_before ((tracks.children _ _).mp child).1
  rw [effect.get?_of_ne different, if_pos child, get?_setNode, if_neg different]
  constructor
  · rintro ⟨old, held, -, ready⟩
    exact ⟨old.released, by rw [held]; rfl, ready⟩
  · rintro ⟨_, held, ready⟩
    obtain ⟨old, oldHeld, rfl⟩ := Option.map_eq_some_iff.mp held
    have waits := (ScheduledNode.isReady_iff.mp ready).2
    rw [ScheduledNode.released_status] at waits
    exact ⟨old, oldHeld, by rw [waits]; rfl, ready⟩

/-- No child of a node that runs is ready. -/
theorem not_mem_ready (tracks : before.Tracks graph selected)
    (effect : Succeeded before name node listed after) (child : other ∈ before.childrenOf name) :
    other ∉ before.ready := by
  intro member
  obtain ⟨old, held, ready⟩ := (tracks.ready other).mp member
  obtain ⟨zero, waits⟩ := ScheduledNode.isReady_iff.mp ready
  have feeds := ((tracks.children name other).mp child).1
  have unfinished : old.status.isTerminal = false := by rw [waits]; rfl
  exact (tracks.waits_of_running effect.status?_before feeds held unfinished).2.2 zero

theorem ready (tracks : before.Tracks graph selected)
    (effect : Succeeded before name node listed after) :
    other ∈ after.ready ↔
      ∃ otherNode, after.nodes.get? other = some otherNode ∧ otherNode.isReady = true := by
  rw [effect.released.ready other]
  by_cases child : other ∈ before.childrenOf name
  · rw [effect.mem_listed tracks]
    have unready := effect.not_mem_ready tracks child
    simp [setNode, unready, child]
  · have unlisted : other ∉ listed := fun member =>
      child ((effect.mem_listed tracks).mp member).1
    simp only [unlisted, or_false]
    refine (tracks.ready other).trans ?_
    by_cases same : other = name
    · subst same
      rw [effect.get?_self tracks]
      simp [effect.found, effect.running, ScheduledNode.isReady_iff, ScheduledNode.ended]
    · rw [effect.get?_of_ne same, if_neg child]

/-- A node that succeeds is no longer waited for, and the books stay right. -/
theorem tracks (tracks : before.Tracks graph selected)
    (effect : Succeeded before name node listed after) : after.Tracks graph selected where
  holds other := by
    rw [← tracks.holds other]
    by_cases same : other = name
    · subst same
      simp [effect.get?_self tracks, effect.found]
    · rw [effect.get?_of_ne same]
      split
      · cases before.nodes.get? other <;> simp
      · rfl
  children parent child := by
    rw [childrenOf_congr effect.released.children]
    exact tracks.children parent child
  degree _ _ held waits := effect.degree tracks held waits
  ready _ := effect.ready tracks
  started other otherNode held begun parent feeds := by
    refine effect.status?_of_success ?_
    by_cases same : other = name
    · subst same
      exact tracks.started other node effect.found (by rw [effect.running]; rfl) parent feeds
    · rw [effect.get?_of_ne same] at held
      split at held
      · obtain ⟨old, oldHeld, rfl⟩ := Option.map_eq_some_iff.mp held
        rw [ScheduledNode.released_status] at begun
        exact tracks.started other old oldHeld begun parent feeds
      · exact tracks.started other otherNode held begun parent feeds

end Succeeded

theorem Failed.tracks (tracks : before.Tracks graph selected)
    (effect : Failed before name node status listed after) : after.Tracks graph selected :=
  (tracks.failed effect.found effect.running effect.hasFailed).skipped effect.skipped

/-! ## Sequences of calls -/

theorem Tracks.exists_succeeded (tracks : queue.Tracks graph selected)
    (running : queue.status? name = some .running) :
    ∃ node listed after, queue.markDone name .success = (.ok ⟨listed, []⟩, after) ∧
      Succeeded queue name node listed after := by
  obtain ⟨node, found, runs⟩ := status?_eq_some_iff.mp running
  obtain ⟨listed, after, run, effect⟩ := exists_markDone_success found runs (by
    intro child member childNode held unfinished
    have feeds := ((tracks.children name child).mp member).1
    exact (tracks.waits_of_running running feeds held unfinished).2.2)
  exact ⟨node, listed, after, run, effect⟩

theorem Tracks.popReady_cases (tracks : queue.Tracks graph selected) :
    ((∀ name, name ∉ queue.ready) ∧ queue.popReady = (none, queue)) ∨
      ∃ name node after, queue.popReady = (some name, after) ∧ Popped queue name node after := by
  by_cases empty : ∀ name, name ∉ queue.ready
  · exact .inl ⟨empty, popReady_of_empty empty⟩
  · obtain ⟨name, member⟩ := not_forall_not.mp empty
    exact .inr (exists_popped member fun name member => (tracks.ready name).mp member)

/-- A running node can end in every final status: it succeeds, or it fails. -/
theorem Tracks.markDone_of_running (tracks : queue.Tracks graph selected)
    (running : queue.status? name = some .running) (final : status.isTerminal = true) :
    (status = .success ∧ ∃ node listed after,
        queue.markDone name status = (.ok ⟨listed, []⟩, after) ∧
          Succeeded queue name node listed after) ∨
      ∃ node listed after, queue.markDone name status =
          (.ok ⟨[], listed.map fun skipped => ⟨skipped, name⟩⟩, after) ∧
        Failed queue name node status listed after := by
  by_cases success : status = .success
  · subst success
    exact .inl ⟨rfl, tracks.exists_succeeded running⟩
  · have failed : status.hasFailed = true := by
      cases status with
      | error | skipped => rfl
      | pending | running => cases final
      | success => exact absurd rfl success
    obtain ⟨node, found, runs⟩ := status?_eq_some_iff.mp running
    exact .inr ⟨node, exists_markDone_failure found runs failed⟩

/-- Marking a node as done fails without an effect, succeeds, or fails the node. -/
theorem Tracks.markDone_cases (tracks : queue.Tracks graph selected) (name : String)
    (status : NodeStatus) :
    (∃ error, queue.markDone name status = (.error error, queue) ∧
        ∀ node, error ≠ .node (.inDegreeUnderflow node)) ∨
      (status = .success ∧ ∃ node listed after,
        queue.markDone name status = (.ok ⟨listed, []⟩, after) ∧
          Succeeded queue name node listed after) ∨
      ∃ node listed after, queue.markDone name status =
          (.ok ⟨[], listed.map fun skipped => ⟨skipped, name⟩⟩, after) ∧
        Failed queue name node status listed after := by
  cases found : queue.nodes.get? name with
  | none => exact .inl ⟨_, markDone_of_absent found status, by simp⟩
  | some node =>
    by_cases running : node.status = .running
    · cases final : status.isTerminal with
      | false => exact .inl ⟨_, markDone_of_not_final found running final, by simp⟩
      | true =>
        have runs : queue.status? name = some .running := by rw [status?_of_get? found, running]
        exact .inr (tracks.markDone_of_running runs final)
    · exact .inl ⟨_, markDone_of_not_running found running status, by simp⟩

/-- A call that changes a queue. -/
inductive Call where
  | popReady
  | markDone (name : String) (status : NodeStatus)
  | skipRemaining
deriving DecidableEq, Repr

/-- The queue after a call, whether the call succeeds or not. -/
def call (queue : Queue) : Call → Queue
  | .popReady => queue.popReady.2
  | .markDone name status => (queue.markDone name status).2
  | .skipRemaining => queue.skipRemaining.2

/-- The queue after a sequence of calls. -/
def afterCalls (queue : Queue) (calls : List Call) : Queue := calls.foldl call queue

theorem Tracks.call (tracks : queue.Tracks graph selected) (call : Call) :
    (queue.call call).Tracks graph selected := by
  cases call with
  | popReady =>
    rcases tracks.popReady_cases with ⟨-, run⟩ | ⟨name, node, after, run, effect⟩
    · simpa only [Queue.call, run] using tracks
    · simpa only [Queue.call, run] using tracks.popped effect
  | markDone name status =>
    rcases tracks.markDone_cases name status with
      ⟨error, run, -⟩ | ⟨-, node, listed, after, run, effect⟩ | ⟨node, listed, after, run, effect⟩
    · simpa only [Queue.call, run] using tracks
    · simpa only [Queue.call, run] using effect.tracks tracks
    · simpa only [Queue.call, run] using effect.tracks tracks
  | skipRemaining =>
    exact tracks.skipped (skipRemaining_skipped fun name member => tracks.status?_of_ready member)

theorem Tracks.afterCalls (tracks : queue.Tracks graph selected) (calls : List Call) :
    (queue.afterCalls calls).Tracks graph selected := by
  induction calls generalizing queue with
  | nil => exact tracks
  | cons call calls ih => exact ih (tracks.call call)

/-- After any calls, the counts, the ready set and the statuses of a queue fit together, and the
calls that rely on them do what they should. -/
theorem bookkeeping_afterCalls (graph : Graph) (selected : NameSet) (calls : List Call) :
    let queue := (ofGraph graph selected).afterCalls calls
    (∀ name, (∃ node, queue.nodes.get? name = some node) ↔
      name ∈ selected ∧ name ∈ graph.nodes) ∧
    (∀ name node, queue.nodes.get? name = some node → node.status = .pending →
      node.inDegree = (graph.nearestSelectedParents selected name).toList.countP fun parent =>
        queue.status? parent ≠ some .success) ∧
    (∀ name, name ∈ queue.ready ↔ ∃ node, queue.nodes.get? name = some node ∧
      node.status = .pending ∧ node.inDegree = 0) ∧
    (∀ name node, queue.nodes.get? name = some node →
      node.status = .running ∨ node.status = .success ∨ node.status = .error →
      ∀ parent ∈ graph.nearestSelectedParents selected name,
        queue.status? parent = some .success) ∧
    (∀ name status node,
      (queue.markDone name status).1 ≠ .error (.node (.inDegreeUnderflow node))) ∧
    (queue.popReady.1 = none ↔ ∀ name, name ∉ queue.ready) ∧
    (∀ name, queue.popReady.1 = some name →
      name ∈ queue.ready ∧ ∀ other ∈ queue.ready, name ≤ other) ∧
    ∀ name update, (queue.markDone name .success).1 = .ok update →
      update.ready.Nodup ∧ ∀ other, other ∈ update.ready ↔
        other ∈ (queue.markDone name .success).2.ready ∧ other ∉ queue.ready := by
  intro queue
  have tracks : queue.Tracks graph selected := (tracks_ofGraph graph selected).afterCalls calls
  refine ⟨tracks.holds, tracks.degree, fun name => ?_, fun name node found begun => ?_,
    fun name status node => ?_, ?_, fun name popped => ?_, fun name update marked => ?_⟩
  · simp only [tracks.ready name, ScheduledNode.isReady_iff, and_comm]
  · refine tracks.started name node found ?_
    rcases begun with begun | begun | begun <;> rw [begun] <;> rfl
  · rcases tracks.markDone_cases name status with
      ⟨error, run, noUnderflow⟩ | ⟨-, _, _, _, run, -⟩ | ⟨_, _, _, run, -⟩ <;> rw [run]
    · exact fun same => noUnderflow node (Except.error.inj same)
    · exact fun same => nomatch same
    · exact fun same => nomatch same
  · rcases tracks.popReady_cases with ⟨empty, run⟩ | ⟨name, _, _, run, effect⟩ <;> rw [run]
    · exact ⟨fun _ => empty, fun _ => rfl⟩
    · exact ⟨fun none => (nomatch none), fun empty => absurd effect.member (empty name)⟩
  · rcases tracks.popReady_cases with ⟨empty, run⟩ | ⟨least, _, _, run, effect⟩ <;>
      rw [run] at popped <;> cases popped
    exact ⟨effect.member, effect.least⟩
  · rcases tracks.markDone_cases name .success with
      ⟨_, run, -⟩ | ⟨-, node, listed, after, run, effect⟩ | ⟨_, _, _, -, effect⟩
    · rw [run] at marked
      cases marked
    · rw [run] at marked ⊢
      cases marked
      have nodup := (nodup_childrenOf queue name).sublist effect.released.sublist
      refine ⟨nodup, fun other => ?_⟩
      have listing : other ∈ listed ↔ _ := effect.mem_listed tracks
      constructor
      · intro member
        exact ⟨(effect.ready tracks).mpr (listing.mp member).2,
          effect.not_mem_ready tracks (listing.mp member).1⟩
      · rintro ⟨later, earlier⟩
        exact ((effect.released.ready other).mp later).resolve_left earlier
    · cases effect.hasFailed

end Queue
end SqlPipeline
