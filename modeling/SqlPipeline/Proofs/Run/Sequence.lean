import SqlPipeline.Proofs.Graph.LeastOrder
import SqlPipeline.Proofs.Run.Threads
import SqlPipeline.Proofs.Schedule.Propagation

/-!
# Runs on one thread

On one thread nothing is taken while a node is in flight.  As long as every node succeeds, the ready
nodes are then exactly those that may come next in an order of the selected nodes, and the least one
is taken, so the results come in the least order.
-/

namespace SqlPipeline

namespace Queue

variable {graph : Graph} {selected : NameSet} {queue : Queue} {results : List NodeResult}
  {name : String}

/-- When nothing runs and every node that is done has succeeded, the ready nodes are those that may
come next. -/
theorem Sound.mem_ready_iff (sound : queue.Sound graph selected) (ledger : queue.Ledger results)
    (idle : queue.status? name ≠ some .running)
    (success : ∀ result ∈ results, result.status = .success) :
    name ∈ queue.ready ↔
      graph.MayFollow (selected.filter graph.contains) (results.map (·.id)) name := by
  have tracks := sound.toTracks
  constructor
  · intro ready
    have pending := sound.status?_of_ready ready
    refine ⟨tracks.mem_iff_status?.mpr ⟨_, pending⟩, fun done => ?_, fun ancestor member path => ?_⟩
    · obtain ⟨result, listed, rfl⟩ := List.mem_map.mp done
      have held := ledger.status? result listed
      rw [pending, success result listed] at held
      cases held
    · have chosen := (NameSet.mem_filter.mp member).1
      obtain ⟨result, listed, same, -⟩ :=
        ledger.exists_result (tracks.success_of_ready ready chosen path) rfl
      exact same ▸ List.mem_map_of_mem listed
  · intro next
    obtain ⟨status, held⟩ := tracks.mem_iff_status?.mp next.member
    have waits : status.isTerminal = false := by
      by_contra final
      obtain ⟨result, listed, same⟩ :=
        ledger.complete name status held (Bool.eq_true_of_not_eq_false final)
      exact next.absent (same ▸ List.mem_map_of_mem listed)
    cases status with
    | running => exact absurd held idle
    | success | error | skipped => cases waits
    | pending =>
      obtain ⟨node, found, pending⟩ := status?_eq_some_iff.mp held
      have parents : ∀ parent, graph.Feeds selected parent name →
          queue.status? parent = some .success := by
        intro parent feeds
        have member : parent ∈ selected.filter graph.contains :=
          NameSet.mem_filter.mpr ⟨feeds.mem_selected, Graph.contains_iff.mpr feeds.mem_nodes.1⟩
        have done := next.ancestors parent member (Graph.feeds_iff.mp feeds).2.precedes
        obtain ⟨result, listed, rfl⟩ := List.mem_map.mp done
        rw [ledger.status? result listed, success result listed]
      refine (tracks.ready name).mpr ⟨node, found, ScheduledNode.isReady_iff.mpr ⟨?_, pending⟩⟩
      rw [tracks.degree name node found pending]
      exact awaited_eq_zero_iff.mpr parents

end Queue

namespace Progress

variable {σ : Type} {plan : RunPlan} {graph : Graph} {compiled : Compilation}
  {selected : NameSet} {executor : Executor σ} {before after last : Progress σ}
  {result : NodeResult} {skipped : List NodeResult}

/-- Every result is a success. -/
def Succeeds (progress : Progress σ) : Prop :=
  ∀ result ∈ progress.results, result.status = .success

/-- Where every result is a success, nothing has been skipped. -/
theorem Recorded.skipped_eq_nil
    (recorded : Recorded plan graph selected before result skipped after)
    (succeeds : after.Succeeds) : before.Succeeds ∧ skipped = [] := by
  rw [Succeeds, recorded.results] at succeeds
  refine ⟨fun other member => succeeds other (List.mem_append_left _ member), ?_⟩
  refine List.eq_nil_iff_forall_not_mem.mpr fun other member => ?_
  have success := succeeds other (List.mem_append_right _ (List.mem_cons_of_mem _ member))
  rw [recorded.status_of_mem other member] at success
  cases success

/-- While every result is a success, what is done and what is in flight was taken in the least
order. -/
def Sequential (graph : Graph) (selected : NameSet) (progress : Progress σ) : Prop :=
  progress.Succeeds → graph.Greedy (selected.filter graph.contains)
    (progress.results.map (·.id) ++ progress.inFlight.map (·.model.id))

/-- A node that is taken while nothing is in flight is the least one that may come next. -/
theorem Sequential.takes {thread : Nat} {others : List Nat} {name : String} {queue : Queue}
    (sequential : before.Sequential graph selected)
    (accounted : Accounted plan graph compiled selected [] before) (idle : before.inFlight = [])
    (takes : before.Takes thread others name queue) (succeeds : before.Succeeds) :
    graph.Greedy (selected.filter graph.contains) (before.results.map (·.id) ++ [name]) := by
  have greedy := sequential succeeds
  rw [idle, List.map_nil, List.append_nil] at greedy
  have follows : ∀ other, other ∈ before.queue.ready ↔
      graph.MayFollow (selected.filter graph.contains) (before.results.map (·.id)) other := by
    intro other
    refine accounted.sound.mem_ready_iff accounted.ledger (fun runs => ?_) succeeds
    have flies := (accounted.running other).mp runs
    rw [idle] at flies
    cases flies
  obtain ⟨node, popped⟩ := takes.popped
  exact greedy.place ((follows name).mp popped.member) fun other next =>
    popped.least other ((follows other).mpr next)

/-- Every step of a run on one thread goes on in the least order. -/
theorem Sequential.moves (keyed : compiled.Keyed) (single : plan.threads ≤ 1)
    (sequential : before.Sequential graph selected)
    (accounted : Accounted plan graph compiled selected [] before)
    (moves : Moves plan graph compiled selected executor before after) :
    after.Sequential graph selected := by
  have length := accounted.length_threads
  have idle : ∀ {thread : Nat} {others : List Nat} {name : String} {queue : Queue},
      before.Takes thread others name queue → before.inFlight = [] := by
    intro thread others name queue takes
    rw [takes.free, List.length_cons] at length
    exact List.length_eq_zero_iff.mp (by omega)
  intro succeeds
  cases moves with
  | rested => exact sequential succeeds
  | @passed thread others name queue result skipped after takes prepared recorded =>
    obtain ⟨earlier, rfl⟩ := recorded.skipped_eq_nil succeeds
    have greedy := sequential.takes accounted (idle takes) takes earlier
    rw [recorded.results, recorded.inFlight, List.map_append]
    simp only [idle takes, List.map_cons, List.map_nil, List.append_nil]
    rw [(RunPlan.prepare_done prepared).1]
    exact greedy
  | @launched thread others name queue model takes prepared =>
    have greedy := sequential.takes accounted (idle takes) takes succeeds
    rw [← keyed.id name model (RunPlan.prepare_execute prepared).1] at greedy
    simp only [launched, idle takes, List.nil_append, List.map_cons, List.map_nil]
    exact greedy
  | performed found =>
    rw [performed, map_called found _ rfl]
    exact sequential succeeds
  | @completed position thread model result skipped after waits found recorded =>
    obtain ⟨earlier, rfl⟩ := recorded.skipped_eq_nil succeeds
    have greedy := sequential earlier
    have bound : position < before.inFlight.length := (List.getElem?_eq_some_iff.mp found).1
    obtain ⟨only, alone⟩ : ∃ only, before.inFlight = [only] :=
      List.length_eq_one_iff.mp (by omega)
    obtain rfl : position = 0 := by
      rw [alone, List.length_singleton] at bound
      omega
    obtain rfl : only = ⟨thread, model, some result⟩ := by
      rw [alone] at found
      exact Option.some.inj found
    have same := (accounted.flights _ (List.mem_of_getElem? found)).id rfl
    rw [recorded.results, recorded.inFlight, List.map_append]
    simp only [landed, alone, List.eraseIdx_zero, List.tail_cons, List.map_cons, List.map_nil,
      List.append_nil, same] at greedy ⊢
    exact greedy

/-- Where every result is a success, closing the run has skipped nothing. -/
theorem results_close_of_succeeds (succeeds : last.close.Succeeds) :
    last.close.results = last.results := by
  obtain ⟨names, results⟩ := last.exists_results_close
  cases names with
  | nil => rw [results, List.map_nil, List.append_nil]
  | cons name names =>
    rw [Succeeds, results] at succeeds
    have success := succeeds _ (List.mem_append_right _ List.mem_cons_self)
    cases success

end Progress

namespace RunPlan

variable {σ : Type} {plan : RunPlan} {graph : Graph} {compiled : Compilation}
  {selected : NameSet} {executor : Executor σ} {state : σ} {order : Nat → Nat}

open Progress

/-- A run on one thread ends, and if every node succeeds, it has taken the selected nodes in their
least order. -/
theorem exists_run_least (keyed : compiled.Keyed) (single : plan.threads ≤ 1) (graph : Graph)
    (selected : NameSet) (executor : Executor σ) (state : σ) (order : Nat → Nat) :
    ∃ final, plan.run graph compiled selected executor state order = .ok final ∧
      (final.Succeeds →
        graph.IsLeastOrder (selected.filter graph.contains) (final.results.map (·.id))) := by
  obtain ⟨last, settled, accounted, rests, run⟩ :=
    exists_run plan graph selected executor state order keyed
  refine ⟨last.close, run, fun succeeds => ?_⟩
  have sequential : last.Sequential graph selected := by
    refine after_induction keyed (motive := fun _ progress => progress.Sequential graph selected)
      (fun _ => .nil) ?_ (settled _ (Nat.le_refl _))
    intro _ before after accounted moves ih
    exact ih.moves keyed single accounted moves
  have same := results_close_of_succeeds succeeds
  have greedy := sequential fun result member => succeeds result (same ▸ member)
  rw [rests.2, List.map_nil, List.append_nil, ← same] at greedy
  exact greedy.isLeastOrder (accounted.complete_close rests.2).results_perm.symm.subset

end RunPlan
end SqlPipeline
