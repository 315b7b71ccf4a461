import SqlPipeline.Proofs.Schedule.Skipping

/-!
# Queues that do not get stuck

A node only moves forward: it waits, then it runs, then it is done, and it may leave out steps but
never goes back.  So in any sequence of calls no node is taken twice and none is completed twice. 
On an acyclic graph a queue that is not finished always has a node that runs or one that is ready.
-/

namespace SqlPipeline

/-- How far a node with this status has come: it waits, it has started, or it is done. -/
def NodeStatus.stage : NodeStatus → Nat
  | pending => 0
  | running => 1
  | success | error | skipped => 2

theorem NodeStatus.stage_of_isTerminal {status : NodeStatus} (final : status.isTerminal = true) :
    status.stage = 2 := by
  cases status <;> first | rfl | cases final

namespace Queue

variable {graph : Graph} {selected : NameSet} {queue before after : Queue}
  {name other : String} {names listed : List String} {node : ScheduledNode}
  {status : NodeStatus}

/-! ## Nothing is stranded -/

theorem isFinished_iff :
    queue.isFinished = true ↔
      ∀ name status, queue.status? name = some status → status.isTerminal = true := by
  rw [isFinished, decide_eq_true_iff]
  simp only [remaining, List.countP_eq_zero, Bool.not_eq_true', Bool.not_eq_false,
    NameMap.mem_values, Queue.status?_eq_some_iff]
  constructor
  · rintro finished name status ⟨node, found, rfl⟩
    exact finished node ⟨name, found⟩
  · rintro finished node ⟨name, found⟩
    exact finished name node.status ⟨node, found, rfl⟩

theorem running_eq_zero_iff :
    queue.running = 0 ↔ ∀ name, queue.status? name ≠ some .running := by
  simp only [running, count, List.countP_eq_zero, decide_eq_true_iff, NameMap.mem_values, ne_eq,
    status?_eq_some_iff, not_exists, not_and]
  constructor
  · intro idle name node found
    exact idle node ⟨name, found⟩
  · rintro idle node ⟨name, found⟩
    exact idle name node found

/-- On an acyclic graph, a queue that is not finished has a node that runs or one that is ready. -/
theorem Sound.running_or_ready (sound : queue.Sound graph selected) (acyclic : graph.Acyclic)
    (unfinished : queue.isFinished = false) : 0 < queue.running ∨ queue.hasReady = true := by
  by_contra stuck
  obtain ⟨idle, unready⟩ := not_or.mp stuck
  have resting := running_eq_zero_iff.mp (Nat.eq_zero_of_not_pos idle)
  have empty : ∀ name, name ∉ queue.ready := by
    simpa [hasReady, NameSet.isEmpty_iff] using unready
  have finished : queue.isFinished = true := by
    refine isFinished_iff.mpr fun name status held => ?_
    cases status with
    | success | error | skipped => rfl
    | running => exact absurd held (resting name)
    | pending => exact absurd held (sound.not_stranded acyclic resting empty name)
  rw [unfinished] at finished
  cases finished

/-! ## Nodes move forward -/

/-- How far a node has come. -/
def stage (queue : Queue) (name : String) : Nat := (queue.status? name).elim 0 NodeStatus.stage

theorem stage_of_status? (held : queue.status? name = some status) :
    queue.stage name = status.stage := by
  rw [stage, held]
  rfl

theorem Skipped.stage_le (effect : Skipped names before listed after) (name : String) :
    before.stage name ≤ after.stage name := by
  rw [stage, stage, effect.status?]
  split
  next member =>
    rw [((effect.mem_listed name).mp member).2]
    exact Nat.zero_le _
  next => exact Nat.le_refl _

theorem Popped.stage_le (tracks : before.Tracks graph selected)
    (effect : Popped before name node after) (other : String) :
    before.stage other ≤ after.stage other := by
  rw [stage, stage, effect.status?]
  split
  next same =>
    rw [same, tracks.status?_of_ready effect.member]
    exact Nat.zero_le _
  next => exact Nat.le_refl _

theorem Succeeded.stage_le (effect : Succeeded before name node listed after) (other : String) :
    before.stage other ≤ after.stage other := by
  rw [stage, stage, effect.status?]
  split
  next same =>
    rw [same, effect.status?_before]
    exact Nat.le_succ 1
  next => exact Nat.le_refl _

theorem Failed.stage_le (tracks : before.Tracks graph selected)
    (effect : Failed before name node status listed after) (other : String) :
    before.stage other ≤ after.stage other := by
  rw [stage, stage, effect.status?]
  split
  next same =>
    have final := NodeStatus.isTerminal_of_hasFailed effect.hasFailed
    rw [same, effect.status?_before, Option.elim_some, Option.elim_some,
      NodeStatus.stage_of_isTerminal final]
    exact Nat.le_succ 1
  next =>
    split
    next member =>
      rw [((effect.mem_listed tracks).mp member).2]
      exact Nat.zero_le _
    next => exact Nat.le_refl _

/-- No call takes a node back. -/
theorem Tracks.stage_le_call (tracks : queue.Tracks graph selected) (call : Call) (name : String) :
    queue.stage name ≤ (queue.call call).stage name := by
  cases call with
  | popReady =>
    rcases tracks.popReady_cases with ⟨-, run⟩ | ⟨least, node, after, run, effect⟩
    · rw [Queue.call, run]
    · rw [Queue.call, run]
      exact effect.stage_le tracks name
  | markDone done status =>
    rcases tracks.markDone_cases done status with
      ⟨error, run, -⟩ | ⟨-, node, listed, after, run, effect⟩ | ⟨node, listed, after, run, effect⟩
    · rw [Queue.call, run]
    · rw [Queue.call, run]
      exact effect.stage_le name
    · rw [Queue.call, run]
      exact effect.stage_le tracks name
  | skipRemaining => exact tracks.skipRemaining.stage_le name

theorem Tracks.stage_le_afterCalls (tracks : queue.Tracks graph selected) (calls : List Call)
    (name : String) : queue.stage name ≤ (queue.afterCalls calls).stage name := by
  induction calls generalizing queue with
  | nil => exact Nat.le_refl _
  | cons call calls ih => exact (tracks.stage_le_call call name).trans (ih (tracks.call call))

/-- Only a running node is marked as done, and then it has the status that it is marked with. -/
theorem Tracks.status?_of_markDone (tracks : queue.Tracks graph selected) {update : QueueUpdate}
    (run : queue.markDone name status = (.ok update, after)) :
    queue.status? name = some .running ∧ after.status? name = some status ∧
      status.isTerminal = true := by
  rcases tracks.markDone_cases name status with
    ⟨error, failed, -⟩ | ⟨rfl, node, listed, last, done, effect⟩ |
      ⟨node, listed, last, done, effect⟩
  · rw [failed] at run
    cases run
  · rw [done] at run
    cases run
    exact ⟨effect.status?_before, by rw [effect.status?, if_pos rfl], rfl⟩
  · rw [done] at run
    cases run
    exact ⟨effect.status?_before, by rw [effect.status?, if_pos rfl],
      NodeStatus.isTerminal_of_hasFailed effect.hasFailed⟩

/-! ## What calls list -/

/-- What the calls of a sequence list, one call after another. -/
def listing (lists : Queue → Call → List String) : Queue → List Call → List String
  | _, [] => []
  | queue, call :: calls => lists queue call ++ listing lists (queue.call call) calls

/-- The node that a call takes from the queue, if it takes one. -/
def taken (queue : Queue) : Call → List String
  | .popReady => queue.popReady.1.toList
  | .markDone _ _ => []
  | .skipRemaining => []

/-- The node that a call marks as done, if it succeeds in that. -/
def completed (queue : Queue) : Call → List String
  | .popReady => []
  | .markDone name status => if (queue.markDone name status).1.isOk then [name] else []
  | .skipRemaining => []

/-- Every call lists different nodes, and each of them reaches a stage by that call. -/
def Advances (graph : Graph) (selected : NameSet) (stage : Nat)
    (lists : Queue → Call → List String) : Prop :=
  ∀ queue : Queue, queue.Tracks graph selected → ∀ call, (lists queue call).Nodup ∧
    ∀ name ∈ lists queue call, queue.stage name < stage ∧ stage ≤ (queue.call call).stage name

theorem advances_taken (graph : Graph) (selected : NameSet) : Advances graph selected 1 taken := by
  intro queue tracks call
  cases call with
  | popReady =>
    rcases tracks.popReady_cases with ⟨-, run⟩ | ⟨name, node, after, run, effect⟩
    · simp [taken, run]
    · have later : after.status? name = some .running := by rw [effect.status?, if_pos rfl]
      simp only [taken, Queue.call, run, Option.toList_some, List.mem_singleton, forall_eq]
      rw [stage_of_status? (tracks.status?_of_ready effect.member), stage_of_status? later]
      exact ⟨List.nodup_singleton name, Nat.zero_lt_one, Nat.le_refl 1⟩
  | markDone => simp [taken]
  | skipRemaining => simp [taken]

theorem advances_completed (graph : Graph) (selected : NameSet) :
    Advances graph selected 2 completed := by
  intro queue tracks call
  cases call with
  | popReady => simp [completed]
  | markDone name status =>
    rcases run : queue.markDone name status with ⟨error | update, after⟩
    · simp [completed, run, Except.isOk, Except.toBool]
    · obtain ⟨earlier, later, final⟩ := tracks.status?_of_markDone run
      simp only [completed, Queue.call, run, Except.isOk, Except.toBool, if_true,
        List.mem_singleton, forall_eq]
      rw [stage_of_status? earlier, stage_of_status? later, NodeStatus.stage_of_isTerminal final]
      exact ⟨List.nodup_singleton name, Nat.one_lt_two, Nat.le_refl 2⟩
  | skipRemaining => simp [completed]

/-- A node that the calls of a sequence bring to a stage is brought there once. -/
theorem Tracks.listing (tracks : queue.Tracks graph selected) {stage : Nat}
    {lists : Queue → Call → List String} (advances : Advances graph selected stage lists)
    (calls : List Call) :
    (queue.listing lists calls).Nodup ∧ ∀ name ∈ queue.listing lists calls,
      queue.stage name < stage ∧ stage ≤ (queue.afterCalls calls).stage name := by
  induction calls generalizing queue with
  | nil => exact ⟨List.nodup_nil, fun name member => absurd member List.not_mem_nil⟩
  | cons call calls ih =>
    obtain ⟨nodup, first⟩ := advances queue tracks call
    obtain ⟨rest, later⟩ := ih (tracks.call call)
    refine ⟨nodup.append rest fun name member again => ?_, fun name member => ?_⟩
    · exact Nat.not_lt.mpr (first name member).2 (later name again).1
    · rcases List.mem_append.mp member with member | member
      · obtain ⟨below, reached⟩ := first name member
        exact ⟨below, reached.trans ((tracks.call call).stage_le_afterCalls calls name)⟩
      · obtain ⟨below, reached⟩ := later name member
        exact ⟨(tracks.stage_le_call call name).trans_lt below, reached⟩

/-- The calls of a sequence bring at most as many nodes to a stage as the queue has. -/
theorem Tracks.length_listing_le (tracks : queue.Tracks graph selected) {stage : Nat}
    (positive : 0 < stage) {lists : Queue → Call → List String}
    (advances : Advances graph selected stage lists) (calls : List Call) :
    (queue.listing lists calls).length ≤ queue.nodes.size := by
  obtain ⟨nodup, reached⟩ := tracks.listing advances calls
  have inside : queue.listing lists calls ⊆ queue.nodes.keys := by
    intro name member
    have later := (reached name member).2
    cases held : (queue.afterCalls calls).status? name with
    | none =>
      rw [Queue.stage, held] at later
      exact absurd later (Nat.not_le.mpr positive)
    | some status =>
      obtain ⟨node, found, -⟩ := status?_eq_some_iff.mp held
      have chosen := ((tracks.afterCalls calls).holds name).mp ⟨node, found⟩
      exact NameMap.mem_keys.mpr ((tracks.holds name).mpr chosen)
  rw [← NameMap.length_keys]
  exact (nodup.subperm inside).length_le

end Queue
end SqlPipeline
