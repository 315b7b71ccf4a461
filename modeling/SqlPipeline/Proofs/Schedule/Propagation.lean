import Mathlib.Data.Set.Card
import SqlPipeline.Proofs.Schedule.Skipping

/-!
# The reach of a queue

The queue of a graph holds exactly as much of the graph as its schedule needs.  Its edges are the
paths between selected nodes through unselected ones, and what a node reaches along them is what it
reaches in the whole graph.  A node that fails makes exactly that skipped, nearest first, and leaves
everything else as it was.
-/

namespace SqlPipeline
namespace Queue

/-- The number of edges of the queue on a shortest path. -/
noncomputable def distance (queue : Queue) (source target : String) : Nat :=
  Walk.distance queue.childrenOf source target

variable {graph : Graph} {selected : NameSet} {queue before after : Queue}
  {name other : String} {names listed : List String} {node : ScheduledNode}
  {status : NodeStatus}

/-! ## Edges and descendants -/

/-- The descendants of a node of the queue are those that it has in the whole graph. -/
theorem Tracks.mem_descendants_iff (tracks : queue.Tracks graph selected) :
    other ∈ queue.descendants name ↔
      name ∈ selected ∧ other ∈ selected ∧ graph.Precedes name other := by
  rw [tracks.mem_descendants]
  constructor
  · rintro ⟨path, chosen⟩
    obtain ⟨next, feeds, -⟩ := Relation.TransGen.head'_iff.mp path
    exact ⟨feeds.mem_selected, chosen, (Graph.transGen_feeds_iff feeds.mem_selected).mp path⟩
  · rintro ⟨member, chosen, path⟩
    exact ⟨(Graph.transGen_feeds_iff member).mpr path, chosen⟩

theorem card_nearestSelectedParents (graph : Graph) (selected : NameSet) (name : String) :
    (graph.nearestSelectedParents selected name).size =
      {parent | parent ∈ selected ∧ graph.Through selected parent name}.ncard := by
  have parents : {parent | parent ∈ selected ∧ graph.Through selected parent name} =
      ((graph.nearestSelectedParents selected name).toList.toFinset : Set String) := by
    ext parent
    rw [Set.mem_ofPred_eq, ← Graph.feeds_iff, Finset.mem_coe, List.mem_toFinset]
    rfl
  rw [parents, Set.ncard_coe_finset, List.toFinset_card_of_nodup (NameSet.nodup_toList _),
    NameSet.size]

/-- The queue of a graph holds the selected nodes of the graph.  An edge joins two of them when a
path in the graph does whose inner nodes are unselected, every node waits for as many nodes as have
such a path to it, and the descendants of a node of the queue, each listed once, are the selected
nodes that it reaches in the whole graph. -/
theorem ofGraph_contracts (graph : Graph) (selected : NameSet) :
    let queue := ofGraph graph selected
    (∀ parent child, child ∈ queue.childrenOf parent ↔
      parent ∈ selected ∧ child ∈ selected ∧ graph.Through selected parent child) ∧
    (∀ name, (∃ node, queue.nodes.get? name = some node) ↔
      name ∈ selected ∧ name ∈ graph.nodes) ∧
    (∀ name node, queue.nodes.get? name = some node → node.inDegree =
      {parent | parent ∈ selected ∧ graph.Through selected parent name}.ncard) ∧
    ∀ name, (queue.descendants name).Nodup ∧ ∀ other, other ∈ queue.descendants name ↔
      name ∈ selected ∧ other ∈ selected ∧ graph.Precedes name other := by
  intro queue
  have tracks : queue.Tracks graph selected := tracks_ofGraph graph selected
  refine ⟨fun parent child => ?_, tracks.holds, fun name node found => ?_, fun name => ?_⟩
  · rw [tracks.children, Graph.feeds_iff]
    tauto
  · rw [← card_nearestSelectedParents]
    rw [ofGraph_get?] at found
    split at found <;> cases found
    rfl
  · exact ⟨nodup_descendants queue name, fun other => tracks.mem_descendants_iff⟩

/-! ## Below a node -/

/-- A node is ready only when all selected nodes that precede it have succeeded. -/
theorem Tracks.success_of_ready (tracks : queue.Tracks graph selected)
    (ready : other ∈ queue.ready) (member : name ∈ selected) (path : graph.Precedes name other) :
    queue.status? name = some .success := by
  obtain ⟨node, found, isReady⟩ := (tracks.ready other).mp ready
  obtain ⟨zero, pending⟩ := ScheduledNode.isReady_iff.mp isReady
  have parents := awaited_eq_zero_iff.mp ((tracks.degree other node found pending).symm.trans zero)
  obtain ⟨parent, path, feeds⟩ :=
    Relation.TransGen.tail'_iff.mp ((Graph.transGen_feeds_iff member).mpr path)
  rcases Relation.reflTransGen_iff_eq_or_transGen.mp path with rfl | path
  · exact parents parent feeds
  · exact tracks.success_of_precedes ((Graph.transGen_feeds_iff member).mp path) member
      (parents parent feeds) rfl

/-- Everything selected below a node without success is skipped, however far below it is. -/
theorem Sound.skipped_of_precedes (sound : queue.Sound graph selected)
    (held : queue.status? name = some status) (failed : status.hasFailed = true)
    (path : graph.Precedes name other) (chosen : other ∈ selected) :
    queue.status? other = some .skipped := by
  obtain ⟨node, found, -⟩ := status?_eq_some_iff.mp held
  have contracted := (Graph.transGen_feeds_iff ((sound.holds name).mp ⟨node, found⟩).1).mpr path
  clear path
  induction contracted with
  | single feeds => exact sound.below _ _ feeds chosen status held failed
  | tail _ feeds ih => exact sound.below _ _ feeds chosen .skipped (ih feeds.mem_selected) rfl

/-! ## What a failure changes -/

theorem Skipped.get?_of_not_mem (effect : Skipped names before listed after)
    (unlisted : other ∉ listed) : after.nodes.get? other = before.nodes.get? other := by
  rw [effect.nodes]
  split
  next member =>
    cases found : before.nodes.get? other with
    | none => rfl
    | some node =>
      have started : node.status ≠ .pending := fun waits =>
        unlisted ((effect.mem_listed other).mpr ⟨member, by rw [status?_of_get? found, waits]⟩)
      simp [ScheduledNode.skipped, started]
  next => rfl

namespace Failed

theorem mem_selected (tracks : before.Tracks graph selected)
    (effect : Failed before name node status listed after) : name ∈ selected :=
  ((tracks.holds name).mp ⟨node, effect.found⟩).1

theorem mem_listed_iff (tracks : before.Tracks graph selected)
    (effect : Failed before name node status listed after) :
    other ∈ listed ↔
      other ∈ selected ∧ graph.Precedes name other ∧ before.status? other = some .pending := by
  rw [effect.mem_listed tracks, Graph.transGen_feeds_iff (effect.mem_selected tracks)]
  tauto

theorem not_mem_listed (tracks : before.Tracks graph selected)
    (effect : Failed before name node status listed after) : name ∉ listed := by
  intro member
  have waits := ((effect.mem_listed tracks).mp member).2
  rw [effect.status?_before] at waits
  cases waits

theorem nodup_listed (effect : Failed before name node status listed after) : listed.Nodup :=
  (nodup_descendants _ name).sublist effect.skipped.sublist

/-- The nodes that are skipped are listed in non-decreasing distance. -/
theorem pairwise_distance (tracks : before.Tracks graph selected)
    (effect : Failed before name node status listed after) :
    listed.Pairwise fun first second => before.distance name first ≤ before.distance name second :=
  Walk.pairwise_distance effect.skipped.sublist (effect.not_mem_listed tracks)

theorem get?_of_not_mem (effect : Failed before name node status listed after)
    (different : other ≠ name) (unlisted : other ∉ listed) :
    after.nodes.get? other = before.nodes.get? other := by
  rw [effect.skipped.get?_of_not_mem unlisted, get?_setNode, if_neg different]

/-- A failure makes no node ready and takes readiness from none. -/
theorem mem_ready_iff (tracks : before.Tracks graph selected)
    (effect : Failed before name node status listed after) :
    other ∈ after.ready ↔ other ∈ before.ready := by
  rw [effect.skipped.ready other]
  refine and_iff_left_of_imp fun ready member => ?_
  obtain ⟨-, path, -⟩ := (effect.mem_listed_iff tracks).mp member
  have success := tracks.success_of_ready ready (effect.mem_selected tracks) path
  rw [effect.status?_before] at success
  cases success

/-- A failure changes no count. -/
theorem inDegree (effect : Failed before name node status listed after) (other : String) :
    (after.nodes.get? other).map (·.inDegree) = (before.nodes.get? other).map (·.inDegree) := by
  have ended : ((before.setNode name (node.ended status)).nodes.get? other).map (·.inDegree) =
      (before.nodes.get? other).map (·.inDegree) := by
    rw [get?_setNode]
    split
    next same =>
      rw [same, effect.found]
      rfl
    next => rfl
  rw [← ended, effect.skipped.nodes]
  split
  · rw [Option.map_map]
    exact congrArg (Option.map · _) (funext ScheduledNode.skipped_inDegree)
  · rfl

end Failed

/-- In every state of a queue, a running node can end without success.  Then exactly the nodes below
it that have not started are skipped because of it, each once and nearest first; everything selected
below it is skipped, and no other node changes.  So in every state, everything selected below a node
that is done without success is skipped. -/
theorem failure_afterCalls (graph : Graph) (selected : NameSet) (calls : List Call) :
    let queue := (ofGraph graph selected).afterCalls calls
    (∀ name status, queue.status? name = some .running → status = .error ∨ status = .skipped →
      ∃ update after, queue.markDone name status = (.ok update, after) ∧
        update.ready = [] ∧
        (∀ skipped ∈ update.skipped, skipped.cause = name) ∧
        (update.skipped.map (·.name)).Nodup ∧
        (∀ other, other ∈ update.skipped.map (·.name) ↔
          other ∈ selected ∧ graph.Precedes name other ∧ queue.status? other = some .pending) ∧
        (update.skipped.map (·.name)).Pairwise (fun first second =>
          queue.distance name first ≤ queue.distance name second) ∧
        after.status? name = some status ∧
        (∀ other ∈ selected, graph.Precedes name other → after.status? other = some .skipped) ∧
        (∀ other, other ≠ name → other ∉ update.skipped.map (·.name) →
          after.nodes.get? other = queue.nodes.get? other) ∧
        (∀ other, (after.nodes.get? other).map (·.inDegree) =
          (queue.nodes.get? other).map (·.inDegree)) ∧
        ∀ other, other ∈ after.ready ↔ other ∈ queue.ready) ∧
    ∀ name status, queue.status? name = some status → status = .error ∨ status = .skipped →
      ∀ other ∈ selected, graph.Precedes name other → queue.status? other = some .skipped := by
  intro queue
  have sound : queue.Sound graph selected := (sound_ofGraph graph selected).afterCalls calls
  have hasFailed : ∀ {status : NodeStatus}, status = .error ∨ status = .skipped →
      status.hasFailed = true := by
    rintro status (rfl | rfl) <;> rfl
  refine ⟨fun name status running unsuccessful => ?_, fun name status held unsuccessful other
    chosen path => sound.skipped_of_precedes held (hasFailed unsuccessful) path chosen⟩
  have tracks := sound.toTracks
  have failed := hasFailed unsuccessful
  obtain ⟨node, found, runs⟩ := status?_eq_some_iff.mp running
  obtain ⟨listed, after, run, effect⟩ := exists_markDone_failure found runs failed
  have names : (listed.map fun other => (⟨other, name⟩ : SkippedNode)).map (·.name) = listed := by
    rw [List.map_map]
    exact List.map_id listed
  have ended : after.status? name = some status := by rw [effect.status?, if_pos rfl]
  refine ⟨_, after, run, rfl, ?_, ?_⟩
  · simp
  rw [names]
  exact ⟨effect.nodup_listed, fun other => effect.mem_listed_iff tracks,
    effect.pairwise_distance tracks, ended,
    fun other chosen path => (sound.failed effect).skipped_of_precedes ended failed path chosen,
    fun other different unlisted => effect.get?_of_not_mem different unlisted,
    effect.inDegree, fun other => effect.mem_ready_iff tracks⟩

/-- A node that fails makes a node skipped that depends on it through an unselected one. -/
theorem failure_afterCalls_hidden :
    let graph := (Graph.empty.addEdge "a" "b").addEdge "b" "c"
    let queue := (ofGraph graph (.ofList ["a", "c"])).afterCalls [.popReady]
    let last := (ofGraph graph (.ofList ["a", "c"])).afterCalls [.popReady, .markDone "a" .error]
    (∃ update after, queue.markDone "a" .error = (.ok update, after) ∧
      "c" ∈ update.skipped.map (·.name) ∧ after.status? "c" = some .skipped) ∧
    last.status? "a" = some .error ∧ last.status? "c" = some .skipped := by
  intro graph queue last
  have path : graph.Precedes "a" "c" :=
    .tail (.single (show graph.Edge "a" "b" by decide)) (show graph.Edge "b" "c" by decide)
  have running : queue.status? "a" = some .running := by decide +kernel
  have waits : queue.status? "c" = some .pending := by decide +kernel
  have failed : last.status? "a" = some .error := by decide +kernel
  have chosen : "c" ∈ NameSet.ofList ["a", "c"] := by decide +kernel
  obtain ⟨update, after, run, -, -, -, listed, -, -, skipped, -⟩ :=
    (failure_afterCalls graph (.ofList ["a", "c"]) [.popReady]).1 "a" .error running (.inl rfl)
  have below := (failure_afterCalls graph (.ofList ["a", "c"])
    [.popReady, .markDone "a" .error]).2 "a" .error failed (.inl rfl) "c" chosen path
  exact ⟨⟨update, after, run, (listed "c").mpr ⟨chosen, path, waits⟩, skipped "c" chosen path⟩,
    failed, below⟩

end Queue
end SqlPipeline
