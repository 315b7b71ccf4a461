import SqlPipeline.Proofs.Run.Completion

/-!
# Verdicts that do not depend on the schedule

On an acyclic graph, a run that goes on after errors gives every node a status that follows from the
outcomes of the node and of its selected ancestors alone.  Neither the number of threads nor the
order in which nodes are executed and complete has a part in it.
-/

namespace SqlPipeline

/-! ## Outcomes of single nodes -/

/-- The outcome of a node by itself: an error if it has not been compiled, failed to compile, is of
a materialization that the command does not support or fails when it is executed, and a success
otherwise. -/
def Command.outcome (command : Command) (compiled : Compilation)
    (succeeds : CompiledModel → Bool) (id : String) : NodeStatus :=
  match compiled.get? id with
  | none => .error
  | some (.error _) => .error
  | some (.ok model) =>
    if command.supports model.materialization = false then .error
    else if command.executes = true ∧ model.statement.isSome = true ∧ succeeds model = false then
      .error
    else .success

namespace RunPlan

variable {plan : RunPlan} {compiled : Compilation} {id : String} {result : NodeResult}
  {model : CompiledModel} {succeeds : CompiledModel → Bool}

theorem outcome_of_prepare_done (succeeds : CompiledModel → Bool)
    (prepared : plan.prepare compiled id = .done result) :
    result.status = plan.command.outcome compiled succeeds id := by
  rw [prepare] at prepared
  rw [Command.outcome]
  cases found : compiled.get? id with
  | none =>
    simp only [found] at prepared
    cases prepared
    rfl
  | some entry =>
    cases entry with
    | error error =>
      simp only [found] at prepared
      cases prepared
      rfl
    | ok model =>
      simp only [found] at prepared
      dsimp only
      cases supported : plan.command.supports model.materialization with
      | false =>
        simp only [supported] at prepared
        cases prepared
        rfl
      | true =>
        cases executes : plan.command.executes with
        | false =>
          simp only [supported, executes] at prepared
          cases prepared
          rfl
        | true =>
          cases present : model.statement with
          | none =>
            simp only [supported, executes, present] at prepared
            cases prepared
            rfl
          | some statement =>
            simp only [supported, executes, present] at prepared
            cases prepared

theorem outcome_of_prepare_execute (succeeds : CompiledModel → Bool)
    (prepared : plan.prepare compiled id = .execute model) :
    plan.command.outcome compiled succeeds id = if succeeds model then .success else .error := by
  obtain ⟨found, supported, executes, present⟩ := prepare_execute prepared
  simp only [Command.outcome, found, supported, executes, present]
  cases succeeds model <;> simp

end RunPlan

/-! ## Verdicts during a run -/

namespace Progress

variable {σ : Type} {plan : RunPlan} {graph : Graph} {compiled : Compilation}
  {selected : NameSet} {executor : Executor σ} {before after : Progress σ} {result : NodeResult}
  {skipped : List NodeResult} {own : String → NodeStatus}

/-- Nodes end as they do by themselves, and a skipped node lies below one that failed. -/
structure Judged (graph : Graph) (selected : NameSet) (own : String → NodeStatus)
    (progress : Progress σ) : Prop where
  going : progress.stopping = false
  ended : ∀ name status, progress.queue.status? name = some status →
    status = .success ∨ status = .error → own name = status
  skipped : ∀ name, progress.queue.status? name = some .skipped → ∃ cause,
    Relation.TransGen (graph.Feeds selected) cause name ∧
      progress.queue.status? cause = some .error
  flying : ∀ flight ∈ progress.inFlight, ∀ result, flight.result? = some result →
    result.status = own flight.model.id

theorem judged_start (plan : RunPlan) (graph : Graph) (selected : NameSet) (state : σ)
    (own : String → NodeStatus) : (start plan graph selected state).Judged graph selected own where
  going := rfl
  ended name status held final := by
    obtain rfl := Queue.ofGraph_status? held
    rcases final with final | final <;> cases final
  skipped name held := by
    cases Queue.ofGraph_status? held
  flying flight member := absurd member List.not_mem_nil

theorem Judged.takes {thread : Nat} {others : List Nat} {name : String} {queue : Queue}
    (judged : before.Judged graph selected own) (sound : before.queue.Sound graph selected)
    (takes : before.Takes thread others name queue) :
    ({ before with queue } : Progress σ).Judged graph selected own where
  going := judged.going
  ended other status held final := by
    rw [takes.status?] at held
    split at held
    · cases held
      rcases final with final | final <;> cases final
    · exact judged.ended other status held final
  skipped other held := by
    rw [takes.status?] at held
    split at held
    · cases held
    · obtain ⟨cause, path, failed⟩ := judged.skipped other held
      refine ⟨cause, path, ?_⟩
      rw [takes.status?, if_neg]
      · exact failed
      · rintro rfl
        rw [takes.pending sound] at failed
        cases failed
  flying := judged.flying

theorem Judged.recorded (judged : before.Judged graph selected own)
    (patient : plan.failFast = false)
    (running : before.queue.status? result.id = some .running)
    (final : result.status = .success ∨ result.status = .error)
    (outcome : result.status = own result.id)
    (recorded : Recorded plan graph selected before result skipped after) :
    after.Judged graph selected own where
  going := by
    rw [recorded.stopping, judged.going, patient, Bool.and_false, Bool.or_false]
  ended name status held ends := by
    rw [recorded.settled.status?] at held
    split at held
    next same =>
      rw [same, ← outcome]
      exact Option.some.inj held
    · split at held
      · cases held
        rcases ends with ends | ends <;> cases ends
      · exact judged.ended name status held ends
  skipped name held := by
    rw [recorded.settled.status?] at held
    split at held
    · rw [Option.some.inj held] at final
      rcases final with final | final <;> cases final
    · split at held
      next member =>
        obtain ⟨other, inside, rfl⟩ := List.mem_map.mp member
        obtain ⟨error, path⟩ := recorded.below patient other inside
        exact ⟨result.id, path, by rw [recorded.settled.status?, if_pos rfl, error]⟩
      next =>
        obtain ⟨cause, path, failed⟩ := judged.skipped name held
        refine ⟨cause, path, ?_⟩
        rw [recorded.settled.status?, if_neg, if_neg]
        · exact failed
        · intro member
          rw [recorded.settled.pending cause member] at failed
          cases failed
        · rintro rfl
          rw [running] at failed
          cases failed
  flying := by
    rw [recorded.inFlight]
    exact judged.flying

theorem Judged.moves (patient : plan.failFast = false)
    {succeeds : CompiledModel → Bool}
    (fixed : ∀ id model, compiled.get? id = some (.ok model) → ∀ state,
      (executor model state).1.isOk = succeeds model)
    (accounted : Accounted plan graph compiled selected [] before)
    (judged : before.Judged graph selected (plan.command.outcome compiled succeeds))
    (moves : Moves plan graph compiled selected executor before after) :
    after.Judged graph selected (plan.command.outcome compiled succeeds) := by
  have sound := accounted.sound
  cases moves with
  | rested => exact judged
  | passed takes prepared recorded =>
    obtain ⟨same, final⟩ := RunPlan.prepare_done prepared
    refine (judged.takes sound takes).recorded patient ?_ final ?_ recorded
    · exact (takes.status? _).trans (if_pos same)
    · rw [same]
      exact RunPlan.outcome_of_prepare_done succeeds prepared
  | launched takes prepared =>
    have taken := judged.takes sound takes
    refine ⟨taken.going, taken.ended, taken.skipped, fun flight member result ended => ?_⟩
    rcases List.mem_append.mp member with earlier | new
    · exact judged.flying flight earlier result ended
    · obtain rfl := List.mem_singleton.mp new
      cases ended
  | @performed position thread model found =>
    have prepared := (accounted.flights _ (List.mem_of_getElem? found)).prepared
    refine ⟨judged.going, judged.ended, judged.skipped, fun flight member result ended => ?_⟩
    rcases List.mem_or_eq_of_mem_set member with earlier | rfl
    · exact judged.flying flight earlier result ended
    · obtain rfl := Option.some.inj ended
      rw [RunPlan.executed_status, fixed model.id model (RunPlan.prepare_execute prepared).1]
      exact (RunPlan.outcome_of_prepare_execute succeeds prepared).symm
  | @completed position thread model result skipped after waits found recorded =>
    have member := List.mem_of_getElem? found
    have carries := accounted.flights _ member
    have same := carries.id rfl
    have landed : (before.landed position thread result).Judged graph selected
        (plan.command.outcome compiled succeeds) :=
      ⟨judged.going, judged.ended, judged.skipped, fun other inside =>
        judged.flying other (List.mem_of_mem_eraseIdx inside)⟩
    refine landed.recorded patient ?_ (carries.final rfl) ?_ recorded
    · rw [same]
      exact (accounted.running _).mpr (List.mem_map_of_mem member)
    · rw [same]
      exact judged.flying _ member result rfl

/-! ## Verdicts at the end -/

/-- When no node waits and nothing is in flight, every node is done. -/
theorem Accounted.isFinished_of_settled
    (accounted : Accounted plan graph compiled selected [] before)
    (settled : ∀ name, before.queue.status? name ≠ some .pending)
    (landed : before.inFlight = []) : before.queue.isFinished = true := by
  refine Queue.isFinished_iff.mpr fun name status held => ?_
  cases status with
  | success | error | skipped => rfl
  | running =>
    have member := (accounted.running name).mp held
    rw [landed] at member
    cases member
  | pending => exact absurd held (settled name)

/-- On an acyclic graph, a run that does not leave nodes waiting when it stops rests only when every
node is done. -/
theorem Accounted.isFinished_of_halted
    (accounted : Accounted plan graph compiled selected [] before)
    (acyclic : graph.Acyclic)
    (halted : before.stopping = true → ∀ name, before.queue.status? name ≠ some .pending)
    (rests : before.Rests) : before.queue.isFinished = true := by
  obtain ⟨waits, landed⟩ := rests
  refine accounted.isFinished_of_settled ?_ landed
  have idle : ∀ name, before.queue.status? name ≠ some .running := by
    intro name runs
    have member := (accounted.running name).mp runs
    rw [landed] at member
    cases member
  rcases waits with stopping | none | empty
  · exact halted stopping
  · have threads := accounted.threads.length_eq
    rw [none, landed] at threads
    simp only [List.map_nil, List.append_nil, List.length_nil, List.length_map,
      List.length_range] at threads
    omega
  · exact accounted.sound.not_stranded acyclic idle empty

theorem Accounted.isFinished (accounted : Accounted plan graph compiled selected [] before)
    (acyclic : graph.Acyclic) (going : before.stopping = false) (rests : before.Rests) :
    before.queue.isFinished = true := by
  refine accounted.isFinished_of_halted acyclic (fun stopping => ?_) rests
  rw [going] at stopping
  cases stopping

/-- A node that has succeeded or failed has only selected ancestors that succeed by themselves. -/
theorem Judged.ancestors (judged : before.Judged graph selected own)
    (sound : before.queue.Sound graph selected) {name : String} {status : NodeStatus}
    (held : before.queue.status? name = some status) (begun : status.hasStarted = true) :
    ∀ ancestor ∈ selected, graph.Precedes ancestor name → own ancestor = .success := by
  intro ancestor member path
  have success := sound.success_of_precedes path member held begun
  exact judged.ended ancestor .success success (.inl rfl)

theorem Judged.verdict (judged : before.Judged graph selected own)
    (complete : Complete graph selected before) (member : result ∈ before.results) :
    (result.status = .success ↔ own result.id = .success ∧
        ∀ ancestor ∈ selected, graph.Precedes ancestor result.id → own ancestor = .success) ∧
      (result.status = .error ↔ own result.id = .error ∧
        ∀ ancestor ∈ selected, graph.Precedes ancestor result.id → own ancestor = .success) ∧
      (result.status = .skipped ↔
        ∃ ancestor ∈ selected, graph.Precedes ancestor result.id ∧ own ancestor ≠ .success) := by
  have held := complete.ledger.status? result member
  have final := complete.ledger.terminal result member
  cases status : result.status with
  | pending | running =>
    rw [status] at final
    cases final
  | success | error =>
    rw [status] at held
    have outcome := judged.ended result.id _ held (by simp)
    have ancestors := judged.ancestors complete.sound held rfl
    simp only [outcome, reduceCtorEq, true_and, false_and, true_iff, false_iff, not_exists]
    refine ⟨ancestors, fun ancestor ⟨chosen, path, failed⟩ => failed ?_⟩
    exact ancestors ancestor chosen path
  | skipped =>
    rw [status] at held
    obtain ⟨cause, path, failed⟩ := judged.skipped result.id held
    have outcome := judged.ended cause .error failed (.inr rfl)
    have chosen : cause ∈ selected := by
      obtain ⟨next, feeds, -⟩ := Relation.TransGen.head'_iff.mp path
      exact feeds.mem_selected
    -- The cause is an ancestor that fails by itself, so no other verdict applies.
    have before := (Graph.transGen_feeds_iff chosen).mp path
    have unsuccessful : own cause ≠ .success := by
      rw [outcome]
      exact fun same => nomatch same
    have blocked : ¬ ∀ ancestor ∈ selected, graph.Precedes ancestor result.id →
        own ancestor = .success := fun all => unsuccessful (all cause chosen before)
    simp only [reduceCtorEq, blocked, and_false, true_iff, true_and]
    exact ⟨cause, chosen, before, unsuccessful⟩

end Progress

/-- On an acyclic graph, with each execution succeeding or failing by its model alone, a run that
goes on after errors gives every node the same status in every schedule: success or error as by
itself if all its selected ancestors succeed by themselves, and skipped otherwise. -/
theorem RunPlan.run_verdicts {σ : Type} {compiled : Compilation} (made : compiled.Made)
    (plan : RunPlan) (patient : plan.failFast = false) {graph : Graph} (acyclic : graph.Acyclic)
    (selected : NameSet) (executor : Executor σ) (succeeds : CompiledModel → Bool)
    (fixed : ∀ id model, compiled.get? id = some (.ok model) → ∀ state,
      (executor model state).1.isOk = succeeds model)
    (state : σ) (order : Nat → Nat) :
    let own := plan.command.outcome compiled succeeds
    ∃ final, plan.run graph compiled selected executor state order = .ok final ∧
      (final.results.map (·.id)).Perm (selected.filter graph.contains).toList ∧
      ∀ result ∈ final.results,
        (result.status = .success ↔ own result.id = .success ∧
          ∀ ancestor ∈ selected, graph.Precedes ancestor result.id → own ancestor = .success) ∧
        (result.status = .error ↔ own result.id = .error ∧
          ∀ ancestor ∈ selected, graph.Precedes ancestor result.id → own ancestor = .success) ∧
        (result.status = .skipped ↔
          ∃ ancestor ∈ selected, graph.Precedes ancestor result.id ∧ own ancestor ≠ .success) := by
  intro own
  have keyed := made.keyed
  obtain ⟨last, reached, accounted, rests, run⟩ :=
    exists_run plan graph selected executor state order keyed
  have judged : last.Judged graph selected own := by
    refine after_induction keyed
      (motive := fun _ progress => progress.Judged graph selected own) ?_ ?_
      (reached _ (Nat.le_refl _))
    · exact Progress.judged_start plan graph selected state own
    · intro _ before after accounted moves ih
      exact ih.moves patient fixed accounted moves
  have complete := accounted.complete_close rests.2
  have finished := accounted.isFinished acyclic judged.going rests
  rw [Progress.close_of_finished finished] at run complete
  exact ⟨last, run, complete.results_perm, fun result member => judged.verdict complete member⟩

theorem Executor.rehearsal_isOk (failures : NameMap String) (model : CompiledModel) (state : Unit) :
    (rehearsal failures model state).1.isOk = (failures.get? model.id).isNone := by
  unfold rehearsal
  split
  next reason failed =>
    rw [failed]
    rfl
  next absent =>
    rw [absent]
    rfl

/-- The verdicts on two models, of which the second one depends on the first one, which fails. -/
theorem RunPlan.run_verdicts_pair :
    ∃ project, Project.ofSources (.default "") Project.pairFiles = .ok project ∧
      let failures := NameMap.ofList [("model.modelflow_project.a", "no such table")]
      let graph := Graph.empty.addEdge "model.modelflow_project.a" "model.modelflow_project.b"
      let own := Command.run.outcome project.compile fun model =>
        (failures.get? model.id).isNone
      ∃ final, onTwoThreads.run graph project.compile graph.nodes (.rehearsal failures) ()
          (fun _ => 0) = .ok final ∧
        ∀ result ∈ final.results, (result.status = .success ↔ own result.id = .success ∧
          ∀ ancestor ∈ graph.nodes, graph.Precedes ancestor result.id →
            own ancestor = .success) := by
  obtain ⟨project, loaded⟩ := Project.exists_pair
  let failures := NameMap.ofList [("model.modelflow_project.a", "no such table")]
  let graph := Graph.empty.addEdge "model.modelflow_project.a" "model.modelflow_project.b"
  have acyclic : graph.Acyclic :=
    Graph.acyclic_of_rank (fun name => if name = "model.modelflow_project.b" then 1 else 0)
      (by decide)
  obtain ⟨final, run, -, verdicts⟩ := run_verdicts (.ofProject loaded project.settings)
    onTwoThreads rfl acyclic graph.nodes (.rehearsal failures)
    (fun model => (failures.get? model.id).isNone)
    (fun _ model _ => Executor.rehearsal_isOk failures model) () fun _ => 0
  exact ⟨project, loaded, final, run, fun result member => (verdicts result member).1⟩

end SqlPipeline
