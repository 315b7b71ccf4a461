import SqlPipeline.Proofs.Run.Verdict

/-!
# Runs that strand nothing

On an acyclic graph no node is left behind.  The queue always has a node that runs or one that is
ready until it is finished, and every run goes on until its queue is finished, also when it stops
after an error, because then everything that has not started is skipped at once.
-/

namespace SqlPipeline
namespace Progress

variable {σ : Type} {plan : RunPlan} {graph : Graph} {compiled : Compilation}
  {selected : NameSet} {executor : Executor σ} {before after : Progress σ} {result : NodeResult}
  {skipped : List NodeResult}

/-- A run that stops leaves nothing waiting, and every node that is skipped is so for a reason. -/
structure Unstranded (progress : Progress σ) : Prop where
  halted : progress.stopping = true → ∀ name, progress.queue.status? name ≠ some .pending
  reason : ∀ result ∈ progress.results, result.status = .skipped →
    result.message ≠ some "Skipped: dependencies never completed"

theorem unstranded_start (plan : RunPlan) (graph : Graph) (selected : NameSet) (state : σ) :
    (start plan graph selected state).Unstranded where
  halted stopping := nomatch stopping
  reason _ member := absurd member List.not_mem_nil

theorem skippedBecause_message (skipped : SkippedNode) :
    (skippedBecause skipped).message ≠ some "Skipped: dependencies never completed" := by
  intro same
  have letters := congrArg String.toList (Option.some.inj same)
  rw [String.toList_append, String.toList_append] at letters
  simp at letters

theorem Unstranded.recorded (unstranded : before.Unstranded)
    (final : result.status = .success ∨ result.status = .error)
    (recorded : Recorded plan graph selected before result skipped after) : after.Unstranded where
  halted stopping name := by
    rw [recorded.stopping, Bool.or_eq_true, Bool.and_eq_true, decide_eq_true_iff] at stopping
    rcases stopping with earlier | ⟨error, fast⟩
    · rw [recorded.settled.status?]
      split
      · rcases final with final | final <;> rw [final] <;> exact fun waits => nomatch waits
      · split
        · exact fun waits => nomatch waits
        · exact unstranded.halted earlier name
    · exact recorded.halted error fast name
  reason other member kept := by
    rw [recorded.results, List.mem_append, List.mem_cons] at member
    rcases member with earlier | rfl | later
    · exact unstranded.reason other earlier kept
    · rcases final with final | final <;> rw [final] at kept <;> cases kept
    · rcases recorded.reason other later with own | fast
      · rw [own]
        exact skippedBecause_message _
      · rw [fast]
        exact fun same => absurd (Option.some.inj same) (by decide)

theorem Unstranded.moves (accounted : Accounted plan graph compiled selected [] before)
    (unstranded : before.Unstranded)
    (moves : Moves plan graph compiled selected executor before after) : after.Unstranded := by
  cases moves with
  | rested => exact unstranded
  | @passed thread others name queue result skipped after takes prepared recorded =>
    have taken : ({ before with queue } : Progress σ).Unstranded :=
      ⟨fun stopping => absurd stopping (by simp [takes.going]), unstranded.reason⟩
    exact taken.recorded (RunPlan.prepare_done prepared).2 recorded
  | launched takes prepared =>
    exact ⟨fun stopping => absurd stopping (by simp [launched, takes.going]), unstranded.reason⟩
  | performed found => exact ⟨unstranded.halted, unstranded.reason⟩
  | @completed position thread model result skipped after waits found recorded =>
    have landed : (before.landed position thread result).Unstranded :=
      ⟨unstranded.halted, unstranded.reason⟩
    have carries := accounted.flights _ (List.mem_of_getElem? found)
    exact landed.recorded (carries.final rfl) recorded

end Progress

/-- On an acyclic graph, a queue that is not finished has a node that runs or one that is ready,
whatever calls have been made of it, and in a sequence of calls at most as many nodes are taken, and
at most as many completed, as the queue has.  So a run of a project, whatever its plan, its
selection, its executor and the order in which nodes are executed and complete, goes on until its
queue is finished, and it skips no node for the reason that dependencies never completed. -/
theorem RunPlan.strands_nothing {σ : Type} :
    (∀ (graph : Graph) (selected : NameSet) (calls : List Queue.Call), graph.Acyclic →
      let start := Queue.ofGraph graph selected
      let queue := start.afterCalls calls
      (queue.isFinished = false → 0 < queue.running ∨ queue.hasReady = true) ∧
      (start.listing Queue.taken calls).length ≤ start.nodes.size ∧
      (start.listing Queue.completed calls).length ≤ start.nodes.size) ∧
    ∀ (settings : Settings) (files : List (FilePath × String)) (project : Project),
      Project.ofSources settings files = .ok project →
      ∀ (plan : RunPlan) (compiled : Compilation), compiled.Made →
      ∀ (selected : NameSet) (executor : Executor σ) (state : σ) (order : Nat → Nat),
      ∃ final, plan.run project.graph compiled selected executor state order = .ok final ∧
        (∀ moment, 3 * (selected.filter project.graph.contains).size ≤ moment →
          plan.after project.graph compiled selected executor state order moment = .ok final) ∧
        final.queue.isFinished = true ∧
        ∀ result ∈ final.results, result.status = .skipped →
          result.message ≠ some "Skipped: dependencies never completed" := by
  constructor
  · intro graph selected calls acyclic start queue
    have tracks : start.Tracks graph selected := Queue.tracks_ofGraph graph selected
    have sound : queue.Sound graph selected :=
      (Queue.sound_ofGraph graph selected).afterCalls calls
    exact ⟨sound.running_or_ready acyclic,
      tracks.length_listing_le Nat.zero_lt_one (Queue.advances_taken graph selected) calls,
      tracks.length_listing_le Nat.zero_lt_two (Queue.advances_completed graph selected) calls⟩
  · intro settings files project loaded plan compiled made selected executor state order
    have keyed := made.keyed
    obtain ⟨last, reached, accounted, rests, run⟩ :=
      exists_run plan project.graph selected executor state order keyed
    have unstranded : last.Unstranded := by
      refine after_induction keyed (motive := fun _ progress => progress.Unstranded) ?_ ?_
        (reached _ (Nat.le_refl _))
      · exact Progress.unstranded_start plan project.graph selected state
      · intro _ before after accounted moves ih
        exact ih.moves accounted moves
    have finished := accounted.isFinished_of_halted (Project.acyclic_ofSources loaded)
      unstranded.halted rests
    rw [Progress.close_of_finished finished] at run
    exact ⟨last, run, reached, finished, unstranded.reason⟩

/-- Two models, of which the second one depends on the first one, which fails: nothing is stranded
once the first one has been taken, and at the end the second one is skipped because of it. -/
theorem RunPlan.strands_nothing_pair :
    ∃ project, Project.ofSources (.default "") Project.pairFiles = .ok project ∧
      let queue := (Queue.ofGraph project.graph project.graph.nodes).afterCalls [.popReady]
      let failures := NameMap.ofList [("model.modelflow_project.a", "no such table")]
      (queue.isFinished = false ∧ (0 < queue.running ∨ queue.hasReady = true)) ∧
      ∃ final, onTwoThreads.run project.graph project.compile project.graph.nodes
          (.rehearsal failures) () (fun _ => 0) = .ok final ∧ final.queue.isFinished = true ∧
        ∃ result ∈ final.results, result.status = .skipped ∧
          result.message ≠ some "Skipped: dependencies never completed" := by
  obtain ⟨project, loaded⟩ := Project.exists_pair
  have unfinished : (match Project.ofSources (.default "") Project.pairFiles with
      | .error _ => true
      | .ok project =>
        ((Queue.ofGraph project.graph project.graph.nodes).afterCalls [.popReady]).isFinished) =
      false := by decide +kernel
  have skips : (match Project.ofSources (.default "") Project.pairFiles with
      | .error _ => false
      | .ok project =>
        match onTwoThreads.run project.graph project.compile project.graph.nodes
          (.rehearsal (.ofList [("model.modelflow_project.a", "no such table")])) ()
          (fun _ => 0) with
        | .error _ => false
        | .ok final => final.results.any (·.status = .skipped)) = true := by decide +kernel
  obtain ⟨queues, runs⟩ := strands_nothing (σ := Unit)
  obtain ⟨going, -⟩ := queues project.graph project.graph.nodes [.popReady]
    (Project.acyclic_ofSources loaded)
  obtain ⟨final, run, -, finished, reason⟩ := runs (.default "") Project.pairFiles project loaded
    onTwoThreads project.compile (.ofProject loaded project.settings) project.graph.nodes
    (.rehearsal (.ofList [("model.modelflow_project.a", "no such table")])) () fun _ => 0
  rw [loaded] at unfinished skips
  simp only [run, List.any_eq_true, decide_eq_true_iff] at skips
  obtain ⟨result, member, skipped⟩ := skips
  exact ⟨project, loaded, ⟨unfinished, going unfinished⟩, final, run, finished, result, member,
    skipped, reason result member skipped⟩

end SqlPipeline
