import SqlPipeline.Proofs.Schedule.Bookkeeping

/-!
# Skipping below failed nodes

A node that is done without success has only skipped nodes below it.  The reason is that nothing
below a node that has not succeeded can have started, so that skipping what has not started reaches
everything.
-/

namespace SqlPipeline
namespace Queue

/-- The books of a queue are right, and the children of nodes without success are skipped. -/
structure Sound (queue : Queue) (graph : Graph) (selected : NameSet) : Prop
    extends Tracks queue graph selected where
  below : ∀ parent child, graph.Feeds selected parent child → child ∈ selected →
    ∀ status, queue.status? parent = some status → status.hasFailed = true →
      queue.status? child = some .skipped

variable {graph : Graph} {selected : NameSet} {queue before after : Queue}
  {name other parent child : String} {listed : List String} {node : ScheduledNode}
  {status : NodeStatus}

/-! ## What lies below a node -/

/-- The descendants of a node are the selected nodes that its path leads to. -/
theorem Tracks.mem_descendants (tracks : queue.Tracks graph selected) :
    other ∈ queue.descendants name ↔
      Relation.TransGen (graph.Feeds selected) name other ∧ other ∈ selected := by
  have keys : ∀ parent, queue.childrenOf parent ⊆ queue.nodes.keys := by
    intro parent child member
    obtain ⟨feeds, chosen⟩ := (tracks.children parent child).mp member
    exact NameMap.mem_keys.mpr ((tracks.holds child).mpr ⟨chosen, feeds.mem_nodes.2⟩)
  have enough : queue.nodes.keys.length < queue.nodes.size + 1 := by
    rw [NameMap.length_keys]
    exact Nat.lt_succ_self _
  rw [descendants, Walk.mem_levels_iff (keys name) (fun parent _ => keys parent) enough]
  constructor
  · rintro ⟨first, member, path⟩
    obtain ⟨feeds, chosen⟩ := (tracks.children name first).mp member
    induction path with
    | refl => exact ⟨.single feeds, chosen⟩
    | tail _ step ih =>
      obtain ⟨later, chosen⟩ := (tracks.children _ _).mp step
      exact ⟨ih.1.tail later, chosen⟩
  · rintro ⟨path, chosen⟩
    induction path with
    | single feeds => exact ⟨_, (tracks.children _ _).mpr ⟨feeds, chosen⟩, .refl⟩
    | @tail middle target _ feeds ih =>
      obtain ⟨first, member, path⟩ := ih feeds.mem_selected
      exact ⟨first, member, path.tail ((tracks.children _ _).mpr ⟨feeds, chosen⟩)⟩

/-- A child of a node without success waits or is skipped. -/
theorem Tracks.waits_or_skipped (tracks : queue.Tracks graph selected)
    (feeds : graph.Feeds selected parent child) (chosen : child ∈ selected)
    (unsuccessful : queue.status? parent ≠ some .success) :
    queue.status? child = some .pending ∨ queue.status? child = some .skipped := by
  obtain ⟨node, found⟩ := (tracks.holds child).mpr ⟨chosen, feeds.mem_nodes.2⟩
  rw [status?_of_get? found]
  cases held : node.status with
  | pending => exact .inl rfl
  | skipped => exact .inr rfl
  | running | success | error =>
    exact absurd (tracks.started child node found (by rw [held]; rfl) parent feeds) unsuccessful

/-- Every selected node from which a path leads to a node that has started has succeeded. -/
theorem Tracks.success_of_precedes (tracks : queue.Tracks graph selected)
    (path : graph.Precedes parent child) (member : parent ∈ selected)
    (found : queue.status? child = some status) (begun : status.hasStarted = true) :
    queue.status? parent = some .success := by
  have contracted := (Graph.transGen_feeds_iff member).mpr path
  clear path
  induction contracted generalizing status with
  | single feeds =>
    obtain ⟨node, held, rfl⟩ := status?_eq_some_iff.mp found
    exact tracks.started _ node held begun _ feeds
  | tail _ feeds ih =>
    obtain ⟨node, held, rfl⟩ := status?_eq_some_iff.mp found
    exact ih (tracks.started _ node held begun _ feeds) rfl

/-! ## Every operation keeps the skipping sound -/

theorem sound_ofGraph (graph : Graph) (selected : NameSet) :
    (ofGraph graph selected).Sound graph selected where
  toTracks := tracks_ofGraph graph selected
  below parent child _ _ status held failed := by
    rw [ofGraph_status? held] at failed
    cases failed

theorem Sound.popped (sound : before.Sound graph selected)
    (effect : Popped before name node after) : after.Sound graph selected where
  toTracks := sound.toTracks.popped effect
  below parent child feeds chosen status held failed := by
    have waited := sound.status?_of_ready effect.member
    rw [effect.status?] at held ⊢
    split at held
    · cases held
      cases failed
    · have skipped := sound.below parent child feeds chosen status held failed
      rw [if_neg]
      · exact skipped
      · rintro rfl
        rw [waited] at skipped
        cases skipped

theorem Sound.succeeded (sound : before.Sound graph selected)
    (effect : Succeeded before name node listed after) : after.Sound graph selected where
  toTracks := effect.tracks sound.toTracks
  below parent child feeds chosen status held failed := by
    rw [effect.status?] at held ⊢
    split at held
    · cases held
      cases failed
    · have skipped := sound.below parent child feeds chosen status held failed
      rw [if_neg]
      · exact skipped
      · rintro rfl
        rw [effect.status?_before] at skipped
        cases skipped

namespace Failed

theorem status?_before (effect : Failed before name node status listed after) :
    before.status? name = some .running := by
  rw [status?_of_get? effect.found, effect.running]

/-- The nodes that are listed are those below the node that have not started. -/
theorem mem_listed (tracks : before.Tracks graph selected)
    (effect : Failed before name node status listed after) :
    other ∈ listed ↔ (Relation.TransGen (graph.Feeds selected) name other ∧ other ∈ selected) ∧
      before.status? other = some .pending := by
  have ended := tracks.failed effect.found effect.running effect.hasFailed
  rw [effect.skipped.mem_listed other, ended.mem_descendants, status?_setNode]
  by_cases same : other = name
  · have final : status ≠ .pending := by
      rintro rfl
      cases effect.hasFailed
    simp [same, effect.status?_before, ScheduledNode.ended, final]
  · simp [same]

/-- The node ends, and the nodes that are listed are skipped. -/
theorem status? (effect : Failed before name node status listed after) (other : String) :
    after.status? other =
      if other = name then some status
      else if other ∈ listed then some .skipped
      else before.status? other := by
  rw [effect.skipped.status?, status?_setNode]
  by_cases same : other = name
  · have unlisted : name ∉ listed := by
      intro member
      have pending := ((effect.skipped.mem_listed name).mp member).2
      rw [status?_setNode, if_pos rfl] at pending
      have ended := effect.hasFailed
      rw [show status = .pending from Option.some.inj pending] at ended
      cases ended
    simp [same, unlisted, ScheduledNode.ended]
  · simp [same]

/-- What lies below a node that fails is skipped, whether it waited or had been skipped before. -/
theorem skipped_below (tracks : before.Tracks graph selected)
    (effect : Failed before name node status listed after) (chosen : other ∈ selected)
    (path : Relation.TransGen (graph.Feeds selected) name other)
    (resting : before.status? other = some .pending ∨ before.status? other = some .skipped) :
    after.status? other = some .skipped := by
  have different : other ≠ name := by
    rintro rfl
    rw [effect.status?_before] at resting
    simp at resting
  rw [effect.status?, if_neg different]
  split
  · rfl
  next unlisted =>
    refine resting.resolve_left fun waits => unlisted ?_
    exact (effect.mem_listed tracks).mpr ⟨⟨path, chosen⟩, waits⟩

end Failed

theorem Sound.failed (sound : before.Sound graph selected)
    (effect : Failed before name node status listed after) : after.Sound graph selected where
  toTracks := effect.tracks sound.toTracks
  below parent child feeds chosen ended held failed := by
    have tracks := sound.toTracks
    rw [effect.status?] at held
    split at held
    next same =>
      subst same
      refine effect.skipped_below tracks chosen (.single feeds) ?_
      refine tracks.waits_or_skipped feeds chosen ?_
      rw [effect.status?_before]
      exact fun success => nomatch success
    next different =>
      split at held
      next member =>
        obtain ⟨⟨path, -⟩, waits⟩ := (effect.mem_listed tracks).mp member
        refine effect.skipped_below tracks chosen (path.tail feeds) ?_
        refine tracks.waits_or_skipped feeds chosen ?_
        rw [waits]
        exact fun success => nomatch success
      next =>
        have skipped := sound.below parent child feeds chosen ended held failed
        have distinct : child ≠ name := by
          rintro rfl
          rw [effect.status?_before] at skipped
          cases skipped
        rw [effect.status?, if_neg distinct]
        split
        · rfl
        · exact skipped

theorem Tracks.skipRemaining (tracks : queue.Tracks graph selected) :
    Skipped queue.nodes.keys queue queue.skipRemaining.1 queue.skipRemaining.2 :=
  skipRemaining_skipped fun _ member => tracks.status?_of_ready member

theorem Tracks.mem_skipRemaining (tracks : queue.Tracks graph selected) :
    name ∈ queue.skipRemaining.1 ↔ queue.status? name = some .pending := by
  rw [tracks.skipRemaining.mem_listed name]
  refine and_iff_right_of_imp fun waits => ?_
  obtain ⟨node, found, -⟩ := status?_eq_some_iff.mp waits
  exact NameMap.mem_keys.mpr ⟨node, found⟩

/-- Once everything that waits is skipped, nothing waits. -/
theorem Tracks.not_pending_skipRemaining (tracks : queue.Tracks graph selected) (name : String) :
    queue.skipRemaining.2.status? name ≠ some .pending := by
  rw [tracks.skipRemaining.status?]
  split
  · exact fun waits => nomatch waits
  next absent => exact fun waits => absent (tracks.mem_skipRemaining.mpr waits)

theorem Sound.skipRemaining (sound : queue.Sound graph selected) :
    queue.skipRemaining.2.Sound graph selected where
  toTracks := sound.toTracks.skipped sound.toTracks.skipRemaining
  below parent child feeds chosen status held failed := by
    have tracks := sound.toTracks
    have unsuccessful : queue.status? parent ≠ some .success := by
      intro success
      rw [tracks.skipRemaining.success_iff parent |>.mpr success] at held
      cases held
      cases failed
    rw [tracks.skipRemaining.status?]
    rcases tracks.waits_or_skipped feeds chosen unsuccessful with waits | skipped
    · rw [if_pos (tracks.mem_skipRemaining.mpr waits)]
    · split
      · rfl
      · exact skipped

theorem Sound.call (sound : queue.Sound graph selected) (call : Call) :
    (queue.call call).Sound graph selected := by
  have tracks := sound.toTracks
  cases call with
  | popReady =>
    rcases tracks.popReady_cases with ⟨-, run⟩ | ⟨name, node, after, run, effect⟩
    · simpa only [Queue.call, run] using sound
    · simpa only [Queue.call, run] using sound.popped effect
  | markDone name status =>
    rcases tracks.markDone_cases name status with
      ⟨error, run, -⟩ | ⟨-, node, listed, after, run, effect⟩ | ⟨node, listed, after, run, effect⟩
    · simpa only [Queue.call, run] using sound
    · simpa only [Queue.call, run] using sound.succeeded effect
    · simpa only [Queue.call, run] using sound.failed effect
  | skipRemaining => exact sound.skipRemaining

/-- Whatever calls are made of a queue, the nodes below a node without success are skipped. -/
theorem Sound.afterCalls (sound : queue.Sound graph selected) (calls : List Call) :
    (queue.afterCalls calls).Sound graph selected := by
  induction calls generalizing queue with
  | nil => exact sound
  | cons call calls ih => exact ih (sound.call call)

/-- On an acyclic graph, nothing waits when nothing runs and nothing is ready: the first node that
waits would have a parent without success, and then it would be skipped. -/
theorem Sound.not_stranded (sound : queue.Sound graph selected) (acyclic : graph.Acyclic)
    (idle : ∀ name, queue.status? name ≠ some .running) (unready : ∀ name, name ∉ queue.ready)
    (name : String) : queue.status? name ≠ some .pending := by
  induction name using acyclic.induction with
  | _ name ih =>
    intro waits
    obtain ⟨node, found, pending⟩ := status?_eq_some_iff.mp waits
    have chosen := ((sound.holds name).mp ⟨node, found⟩).1
    have blocked : queue.awaited graph selected name ≠ 0 := by
      rw [← sound.degree name node found pending]
      intro zero
      have isReady := ScheduledNode.isReady_iff.mpr ⟨zero, pending⟩
      exact unready name ((sound.ready name).mpr ⟨node, found, isReady⟩)
    rw [ne_eq, awaited_eq_zero_iff, not_forall] at blocked
    obtain ⟨parent, blocked⟩ := blocked
    obtain ⟨feeds, unsuccessful⟩ := not_forall.mp blocked
    obtain ⟨status, held⟩ :=
      sound.status?_ne_none feeds.mem_selected feeds.mem_nodes.1
    have failed : status.hasFailed = true := by
      cases status with
      | error | skipped => rfl
      | success => exact absurd held unsuccessful
      | running => exact absurd held (idle parent)
      | pending => exact absurd held (ih parent (Graph.feeds_iff.mp feeds).2.precedes)
    have skipped := sound.below parent name feeds chosen status held failed
    rw [waits] at skipped
    cases skipped

end Queue
end SqlPipeline
