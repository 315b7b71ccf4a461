import SqlPipeline.Proofs.Schedule.Liveness
import SqlPipeline.Proofs.Schedule.Propagation

/-!
# Nodes that no longer wait

Every node of a queue waits at first, and it stops waiting when a call starts it or skips it.  The
calls report each node at the moment when it stops waiting and never again, so the reports of any
sequence of calls are, without repetition, the nodes that no longer wait.  Once everything that
waits has been skipped, there is nothing left that a later call could report or release.
-/

namespace SqlPipeline
namespace Queue

/-- The nodes that a call reports as no longer waiting: the one that it starts, or those that it
skips. -/
def departed (queue : Queue) : Call → List String
  | .popReady => queue.popReady.1.toList
  | .markDone name status =>
    match (queue.markDone name status).1 with
    | .ok update => update.skipped.map (·.name)
    | .error _ => []
  | .skipRemaining => queue.skipRemaining.1

variable {graph : Graph} {selected : NameSet} {queue before after : Queue} {name other : String}
  {listed : List String} {node : ScheduledNode} {status : NodeStatus}

/-! ## One call -/

theorem Popped.departs (tracks : before.Tracks graph selected)
    (effect : Popped before name node after) :
    other = name ↔ before.status? other = some .pending ∧ after.status? other ≠ some .pending := by
  rw [effect.status?]
  by_cases same : other = name
  · simp [same, tracks.status?_of_ready effect.member]
  · simp [same]

theorem Succeeded.pending_iff (effect : Succeeded before name node listed after) :
    after.status? other = some .pending ↔ before.status? other = some .pending := by
  rw [effect.status?]
  by_cases same : other = name
  · simp [same, effect.status?_before]
  · simp [same]

theorem Failed.departs (tracks : before.Tracks graph selected)
    (effect : Failed before name node status listed after) :
    other ∈ listed ↔
      before.status? other = some .pending ∧ after.status? other ≠ some .pending := by
  rw [effect.status?]
  by_cases same : other = name
  · simp [same, effect.not_mem_listed tracks, effect.status?_before]
  · by_cases member : other ∈ listed
    · simp [same, member, ((effect.mem_listed tracks).mp member).2]
    · simp [same, member]

/-- A call reports exactly the nodes that wait before it and not after it. -/
theorem Tracks.mem_departed (tracks : queue.Tracks graph selected) (call : Call) :
    name ∈ queue.departed call ↔
      queue.status? name = some .pending ∧ (queue.call call).status? name ≠ some .pending := by
  cases call with
  | popReady =>
    rcases tracks.popReady_cases with ⟨-, run⟩ | ⟨first, node, after, run, effect⟩
    · simp [departed, Queue.call, run]
    · simp only [departed, Queue.call, run, Option.toList_some, List.mem_singleton]
      exact effect.departs tracks
  | markDone done status =>
    rcases tracks.markDone_cases done status with
      ⟨error, run, -⟩ | ⟨-, node, listed, after, run, effect⟩ | ⟨node, listed, after, run, effect⟩
    · simp [departed, Queue.call, run]
    · simp [departed, Queue.call, run, effect.pending_iff]
    · simp only [departed, Queue.call, run, List.map_map]
      rw [← effect.departs tracks]
      exact iff_of_eq (congrArg (name ∈ ·) (List.map_id listed))
  | skipRemaining =>
    rw [departed, Queue.call, tracks.mem_skipRemaining]
    exact (and_iff_left (tracks.not_pending_skipRemaining name)).symm

theorem Tracks.nodup_departed (tracks : queue.Tracks graph selected) (call : Call) :
    (queue.departed call).Nodup := by
  cases call with
  | popReady =>
    rcases tracks.popReady_cases with ⟨-, run⟩ | ⟨first, node, after, run, effect⟩
    · simp [departed, run]
    · simp [departed, run]
  | markDone done status =>
    rcases tracks.markDone_cases done status with
      ⟨error, run, -⟩ | ⟨-, node, listed, after, run, effect⟩ | ⟨node, listed, after, run, effect⟩
    · simp [departed, run]
    · simp [departed, run]
    · simp only [departed, run, List.map_map]
      exact (List.map_id listed).symm ▸ effect.nodup_listed
  | skipRemaining => exact queue.nodes.nodup_keys.sublist (List.filter_sublist.map _)

/-! ## Sequences of calls -/

/-- A node that waits after a call has waited before it. -/
theorem Tracks.pending_of_call (tracks : queue.Tracks graph selected) {call : Call}
    (waits : (queue.call call).status? name = some .pending) :
    queue.status? name = some .pending := by
  obtain ⟨later, there, -⟩ := status?_eq_some_iff.mp waits
  obtain ⟨node, found⟩ :=
    (tracks.holds name).mpr (((tracks.call call).holds name).mp ⟨later, there⟩)
  have never_back := tracks.stage_le_call call name
  rw [stage_of_status? (status?_of_get? found), stage_of_status? waits] at never_back
  rw [status?_of_get? found]
  cases held : node.status with
  | pending => rfl
  | running | success | error | skipped =>
    rw [held] at never_back
    cases never_back

theorem Tracks.pending_of_afterCalls (tracks : queue.Tracks graph selected) {calls : List Call}
    (waits : (queue.afterCalls calls).status? name = some .pending) :
    queue.status? name = some .pending := by
  induction calls generalizing queue with
  | nil => exact waits
  | cons call calls ih => exact tracks.pending_of_call (ih (tracks.call call) waits)

/-- The calls of a sequence report exactly the nodes that wait before them and not after them. -/
theorem Tracks.mem_listing_departed (tracks : queue.Tracks graph selected) (calls : List Call) :
    name ∈ queue.listing departed calls ↔ queue.status? name = some .pending ∧
      (queue.afterCalls calls).status? name ≠ some .pending := by
  induction calls generalizing queue with
  | nil => exact iff_of_false List.not_mem_nil fun ⟨waits, left⟩ => left waits
  | cons call calls ih =>
    have later := tracks.call call
    have first : (queue.call call).status? name = some .pending →
        queue.status? name = some .pending := tracks.pending_of_call
    have second : (queue.afterCalls (call :: calls)).status? name = some .pending →
        (queue.call call).status? name = some .pending := later.pending_of_afterCalls
    rw [Queue.listing, List.mem_append, tracks.mem_departed, ih later]
    change _ ∨ _ ∧ (queue.afterCalls (call :: calls)).status? name ≠ _ ↔ _
    tauto

/-- No node is reported by two calls: after the first one it does not wait any more. -/
theorem Tracks.nodup_listing_departed (tracks : queue.Tracks graph selected) (calls : List Call) :
    (queue.listing departed calls).Nodup := by
  induction calls generalizing queue with
  | nil => exact List.nodup_nil
  | cons call calls ih =>
    have later := tracks.call call
    refine (tracks.nodup_departed call).append (ih later) fun name first again => ?_
    exact ((tracks.mem_departed call).mp first).2 ((later.mem_listing_departed calls).mp again).1

/-- Once a queue is finished, its calls have reported all of its nodes. -/
theorem listing_departed_perm (calls : List Call)
    (finished : ((ofGraph graph selected).afterCalls calls).isFinished = true) :
    ((ofGraph graph selected).listing departed calls).Perm
      ((ofGraph graph selected).afterCalls calls).nodes.keys := by
  have start : (ofGraph graph selected).Tracks graph selected := tracks_ofGraph graph selected
  have last := start.afterCalls calls
  refine (List.perm_ext_iff_of_nodup (start.nodup_listing_departed calls)
    (NameMap.nodup_keys _)).mpr fun name => ?_
  rw [start.mem_listing_departed, NameMap.mem_keys, last.holds]
  constructor
  · rintro ⟨waits, -⟩
    obtain ⟨node, found, -⟩ := status?_eq_some_iff.mp waits
    exact (start.holds name).mp ⟨node, found⟩
  · rintro ⟨chosen, inside⟩
    obtain ⟨status, held⟩ := start.status?_ne_none chosen inside
    refine ⟨ofGraph_status? held ▸ held, fun waits => ?_⟩
    cases isFinished_iff.mp finished name .pending waits

/-! ## When nothing waits -/

theorem pairwise_skipRemaining (queue : Queue) : queue.skipRemaining.1.Pairwise (· < ·) :=
  List.pairwise_map.mpr (queue.nodes.ascending.sublist List.filter_sublist)

/-- A queue in which nothing waits starts nothing. -/
theorem Tracks.popReady_of_none_pending (tracks : queue.Tracks graph selected)
    (none : ∀ name, queue.status? name ≠ some .pending) : queue.popReady.1 = Option.none := by
  rcases tracks.popReady_cases with ⟨-, run⟩ | ⟨first, node, after, run, effect⟩
  · rw [run]
  · exact absurd (tracks.status?_of_ready effect.member) (none first)

/-- Where nothing waits, a node that is done releases no other node and makes none skipped. -/
theorem Tracks.markDone_of_none_pending (tracks : queue.Tracks graph selected)
    (none : ∀ name, queue.status? name ≠ some .pending) {update : QueueUpdate}
    (marked : (queue.markDone name status).1 = .ok update) : update = ⟨[], []⟩ := by
  rcases tracks.markDone_cases name status with
    ⟨error, run, -⟩ | ⟨-, node, listed, after, run, effect⟩ | ⟨node, listed, after, run, effect⟩ <;>
    rw [run] at marked <;> cases marked
  · have empty : listed = [] := List.eq_nil_iff_forall_not_mem.mpr fun other member => by
      obtain ⟨-, otherNode, found, ready⟩ := (effect.mem_listed tracks).mp member
      have waits := status?_of_get? found
      rw [(ScheduledNode.isReady_iff.mp ready).2] at waits
      exact none other (effect.pending_iff.mp waits)
    rw [empty]
  · have empty : listed = [] := List.eq_nil_iff_forall_not_mem.mpr fun other member =>
      none other ((effect.mem_listed tracks).mp member).2
    rw [empty]
    rfl

/-- Whatever calls are made of a queue, they report no node twice as started or skipped, and once
the queue is finished they have reported exactly its nodes.  Skipping what remains reports the nodes
that wait, in ascending order, and whatever calls follow, no later one starts, releases or skips a
node. -/
theorem departures_afterCalls (graph : Graph) (selected : NameSet) (calls : List Call) :
    let start := ofGraph graph selected
    let queue := start.afterCalls calls
    (start.listing departed calls).Nodup ∧
    (queue.isFinished = true → (start.listing departed calls).Perm queue.nodes.keys) ∧
    queue.skipRemaining.1.Pairwise (· < ·) ∧
    (∀ name, name ∈ queue.skipRemaining.1 ↔ queue.status? name = some .pending) ∧
    ∀ later, let stopped := queue.skipRemaining.2.afterCalls later
      stopped.popReady.1 = none ∧
      ∀ name status update, (stopped.markDone name status).1 = .ok update →
        update.ready = [] ∧ update.skipped = [] := by
  intro start queue
  have tracks : queue.Tracks graph selected := (tracks_ofGraph graph selected).afterCalls calls
  refine ⟨(tracks_ofGraph graph selected).nodup_listing_departed calls,
    listing_departed_perm calls, pairwise_skipRemaining queue,
    fun name => tracks.mem_skipRemaining, fun later => ?_⟩
  have skipped := tracks.call .skipRemaining
  have stopped := skipped.afterCalls later
  have none : ∀ name, (queue.skipRemaining.2.afterCalls later).status? name ≠ some .pending :=
    fun name waits => tracks.not_pending_skipRemaining name (skipped.pending_of_afterCalls waits)
  refine ⟨stopped.popReady_of_none_pending none, fun name status update marked => ?_⟩
  obtain rfl := stopped.markDone_of_none_pending none marked
  exact ⟨rfl, rfl⟩

/-- Two nodes that wait for each other are reported once, when what remains is skipped, although the
last running node is done after that. -/
theorem departures_afterCalls_loop :
    let graph := ((Graph.empty.addEdge "a" "b").addEdge "b" "c").addEdge "c" "b"
    let start := ofGraph (graph.addNode "d") (.ofList ["a", "b", "c", "d"])
    let calls : List Call := [.popReady, .popReady, .markDone "a" .success, .skipRemaining,
      .markDone "d" .error]
    (start.afterCalls calls).isFinished = true ∧
      (start.listing departed calls).Perm (start.afterCalls calls).nodes.keys := by
  intro graph start calls
  have finished : (start.afterCalls calls).isFinished = true := by decide +kernel
  exact ⟨finished, (departures_afterCalls (graph.addNode "d") _ calls).2.1 finished⟩

end Queue
end SqlPipeline
