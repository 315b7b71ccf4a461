import SqlPipeline.Proofs.Run.Completion

/-!
# The order of executions

A node is executed only after every selected node from which a path leads to it has been recorded as
a success, also where all paths pass through unselected nodes.  No node is executed twice, because a
node that has started never waits again, and no execution in flight is executed twice.
-/

namespace SqlPipeline

namespace RunEvent

@[simp]
theorem startedIds_append (first second : List RunEvent) :
    startedIds (first ++ second) = startedIds first ++ startedIds second :=
  List.filterMap_append

@[simp]
theorem startedIds_started (id : String) (thread : Nat) : startedIds [.started id thread] = [id] :=
  rfl

@[simp]
theorem startedIds_completed (id : String) : startedIds [.completed id] = [] := rfl

end RunEvent

namespace Progress

variable {σ : Type} {plan : RunPlan} {graph : Graph} {compiled : Compilation}
  {selected : NameSet} {executor : Executor σ} {before after : Progress σ} {result : NodeResult}

/-! ## Nodes that have started -/

/-- The nodes that have been executed are different, each of them has started, and none of them is
in flight without a result. -/
structure Dispatched (progress : Progress σ) : Prop where
  nodup : (RunEvent.startedIds progress.events).Nodup
  started : ∀ id ∈ RunEvent.startedIds progress.events, ∃ status,
    progress.queue.status? id = some status ∧ status.hasStarted = true
  fresh : ∀ flight ∈ progress.inFlight, flight.result? = none →
    flight.model.id ∉ RunEvent.startedIds progress.events

/-- A node that has started stays so when a node ends. -/
theorem started_of_settled {earlier later : Queue} {name other : String}
    {status : NodeStatus} {skipped : List String}
    (settled : Queue.Settled graph selected earlier name status skipped later)
    (final : status = .success ∨ status = .error)
    (started : ∃ status, earlier.status? other = some status ∧ status.hasStarted = true) :
    ∃ status, later.status? other = some status ∧ status.hasStarted = true := by
  obtain ⟨old, held, begun⟩ := started
  rw [settled.status?]
  split
  · refine ⟨status, rfl, ?_⟩
    rcases final with rfl | rfl <;> rfl
  · split
    next member =>
      rw [settled.pending other member] at held
      cases held
      cases begun
    next => exact ⟨old, held, begun⟩

theorem Dispatched.takes {thread : Nat} {others : List Nat} {name : String} {queue : Queue}
    (dispatched : before.Dispatched) (takes : before.Takes thread others name queue) :
    ({ before with queue } : Progress σ).Dispatched where
  nodup := dispatched.nodup
  started id member := by
    rw [takes.status?]
    split
    · exact ⟨.running, rfl, rfl⟩
    · exact dispatched.started id member
  fresh := dispatched.fresh

theorem Dispatched.recorded {skipped : List NodeResult}
    (dispatched : before.Dispatched)
    (recorded : Recorded plan graph selected before result skipped after)
    (final : result.status = .success ∨ result.status = .error) : after.Dispatched where
  nodup := by
    rw [recorded.events]
    exact dispatched.nodup
  started id member := by
    rw [recorded.events] at member
    exact started_of_settled recorded.settled final (dispatched.started id member)
  fresh := by
    rw [recorded.inFlight, recorded.events]
    exact dispatched.fresh

theorem Dispatched.landed {position thread : Nat}
    (dispatched : before.Dispatched) : (before.landed position thread result).Dispatched := by
  have events : RunEvent.startedIds (before.landed position thread result).events =
      RunEvent.startedIds before.events := by
    rw [Progress.landed, RunEvent.startedIds_append, RunEvent.startedIds_completed,
      List.append_nil]
  refine ⟨?_, ?_, fun flight member => ?_⟩
  · rw [events]
    exact dispatched.nodup
  · rw [events]
    exact dispatched.started
  · rw [events]
    exact dispatched.fresh flight (List.mem_of_mem_eraseIdx member)

/-- A node that is ready has not been executed. -/
theorem Dispatched.launched {thread : Nat} {others : List Nat} {name : String} {queue : Queue}
    {model : CompiledModel} (dispatched : before.Dispatched)
    (sound : before.queue.Sound graph selected) (takes : before.Takes thread others name queue)
    (same : model.id = name) : (before.launched queue model thread others).Dispatched where
  nodup := dispatched.nodup
  started := (dispatched.takes takes).started
  fresh flight member waiting := by
    rcases List.mem_append.mp member with earlier | new
    · exact dispatched.fresh flight earlier waiting
    · intro executed
      rw [List.mem_singleton.mp new, same] at executed
      obtain ⟨status, held, begun⟩ := dispatched.started name executed
      rw [takes.pending sound] at held
      cases held
      cases begun

/-- What is in flight without a result is executed once. -/
theorem Dispatched.performed {position thread : Nat} {model : CompiledModel}
    (dispatched : before.Dispatched)
    (accounted : Accounted plan graph compiled selected [] before)
    (found : before.inFlight[position]? = some ⟨thread, model, none⟩) :
    (before.performed plan executor position ⟨thread, model, none⟩).Dispatched := by
  have flies := List.mem_of_getElem? found
  have unexecuted := dispatched.fresh _ flies rfl
  have ids : (before.performed plan executor position ⟨thread, model, none⟩).inFlight.map
      (·.model.id) = before.inFlight.map (·.model.id) := map_called found _ rfl
  refine ⟨?_, fun id member => ?_, fun flight member waiting executed => ?_⟩
  · rw [Progress.performed, RunEvent.startedIds_append, RunEvent.startedIds_started]
    refine dispatched.nodup.append (List.nodup_singleton _) fun id earlier later => ?_
    rw [List.mem_singleton.mp later] at earlier
    exact unexecuted earlier
  · rw [Progress.performed, RunEvent.startedIds_append, RunEvent.startedIds_started,
      List.mem_append, List.mem_singleton] at member
    rcases member with earlier | rfl
    · exact dispatched.started id earlier
    · exact ⟨.running, (accounted.running model.id).mpr (List.mem_map_of_mem flies), rfl⟩
  · rw [Progress.performed, RunEvent.startedIds_append, RunEvent.startedIds_started,
      List.mem_append, List.mem_singleton] at executed
    have here : called plan executor before.state ⟨thread, model, none⟩ ∈
        (before.performed plan executor position ⟨thread, model, none⟩).inFlight :=
      List.mem_set (List.getElem?_eq_some_iff.mp found).1 _
    rcases List.mem_or_eq_of_mem_set member with earlier | rfl
    · refine executed.elim (dispatched.fresh flight earlier waiting) fun same => ?_
      -- Two executions in flight of one model would be the same one, and that has a result.
      have nodup : ((before.performed plan executor position ⟨thread, model, none⟩).inFlight.map
          (·.model.id)).Nodup := ids ▸ accounted.nodup
      rw [List.inj_on_of_nodup_map nodup member here same] at waiting
      cases waiting
    · cases waiting

theorem Dispatched.moves (keyed : compiled.Keyed) (dispatched : before.Dispatched)
    (accounted : Accounted plan graph compiled selected [] before)
    (moves : Moves plan graph compiled selected executor before after) : after.Dispatched := by
  cases moves with
  | rested => exact dispatched
  | passed takes prepared recorded =>
    exact (dispatched.takes takes).recorded recorded (RunPlan.prepare_done prepared).2
  | @launched thread others name queue model takes prepared =>
    have same := keyed.id name model (RunPlan.prepare_execute prepared).1
    exact dispatched.launched accounted.sound takes same
  | performed found => exact dispatched.performed accounted found
  | completed waits found recorded =>
    have final := (accounted.flights _ (List.mem_of_getElem? found)).final rfl
    exact dispatched.landed.recorded recorded final

/-! ## What is executed, and when -/

/-- A step calls the executor on the model of an execution in flight, which has a result then. -/
structure Executes (plan : RunPlan) (graph : Graph) (compiled : Compilation) (selected : NameSet)
    (executor : Executor σ) (before : Progress σ) (model : CompiledModel) (thread : Nat)
    (after : Progress σ) : Prop where
  state : after.state = (executor model before.state).2
  inFlight : ∃ position, before.inFlight[position]? = some ⟨thread, model, none⟩ ∧
    after.inFlight = before.inFlight.set position
      ⟨thread, model, some (plan.executed model thread (executor model before.state).1)⟩
  events : after.events = before.events ++ [.started model.id thread]
  mem_selected : model.id ∈ selected
  mem_nodes : model.id ∈ graph.nodes
  compiled : compiled.get? model.id = some (.ok model)
  statement : model.statement.isSome = true
  not_ephemeral : model.materialization ≠ .ephemeral
  supported : plan.command.supports model.materialization = true
  /-- Every selected node from which a path leads to the model has been recorded as a success. -/
  ancestors : ∀ ancestor ∈ selected, graph.Precedes ancestor model.id →
    ∃ result ∈ before.results, result.id = ancestor ∧ result.status = .success

/-- When a node is in flight, the selected nodes that precede it have been recorded as successes. -/
theorem Accounted.ancestors (accounted : Accounted plan graph compiled selected [] before)
    {flight : InFlight} (flies : flight ∈ before.inFlight) {ancestor : String}
    (member : ancestor ∈ selected) (path : graph.Precedes ancestor flight.model.id) :
    ∃ result ∈ before.results, result.id = ancestor ∧ result.status = .success := by
  have runs : before.queue.status? flight.model.id = some .running :=
    (accounted.running _).mpr (List.mem_map_of_mem flies)
  have success : before.queue.status? ancestor = some .success :=
    accounted.sound.success_of_precedes path member runs rfl
  exact accounted.ledger.exists_result success rfl

/-- A step leaves the executor alone, or calls it on a single model that may be executed. -/
theorem Moves.executes_or (keyed : compiled.Keyed)
    (accounted : Accounted plan graph compiled selected [] before)
    (moves : Moves plan graph compiled selected executor before after) :
    (after.state = before.state ∧
        RunEvent.startedIds after.events = RunEvent.startedIds before.events) ∨
      ∃ model thread,
        Executes plan graph compiled selected executor before model thread after := by
  cases moves with
  | rested => exact .inl ⟨rfl, rfl⟩
  | passed takes prepared recorded =>
    exact .inl ⟨recorded.state, congrArg RunEvent.startedIds recorded.events⟩
  | launched => exact .inl ⟨rfl, rfl⟩
  | @performed position thread model found =>
    have flies := List.mem_of_getElem? found
    obtain ⟨compiles, supported, -, present⟩ :=
      RunPlan.prepare_execute (accounted.flights _ flies).prepared
    have runs := (accounted.running model.id).mpr (List.mem_map_of_mem flies)
    obtain ⟨node, held, -⟩ := Queue.status?_eq_some_iff.mp runs
    obtain ⟨chosen, known⟩ := (accounted.sound.holds model.id).mp ⟨node, held⟩
    exact .inr ⟨model, thread, rfl, ⟨position, found, rfl⟩, rfl, chosen, known, compiles, present,
      keyed.not_ephemeral compiles present, supported,
      fun ancestor member path => accounted.ancestors flies member path⟩
  | completed waits found recorded =>
    refine .inl ⟨recorded.state, ?_⟩
    rw [recorded.events]
    simp [landed]

end Progress

/-- Whatever the graph, the selection, the command, the threads, the executor and the order in which
nodes are executed and complete, every step of a run of a compiled project leaves the executor alone
or calls it on one model.  That model is selected, compiled, supported by the command and not
ephemeral, it has a statement, and every selected node that precedes it is among the results as a
success.  No node is executed twice. -/
theorem RunPlan.executes_in_order {σ : Type} {compiled : Compilation} (made : compiled.Made)
    (plan : RunPlan) (graph : Graph) (selected : NameSet) (executor : Executor σ) (state : σ)
    (order : Nat → Nat) :
    (∀ moment, ∃ before after,
      plan.after graph compiled selected executor state order moment = .ok before ∧
      plan.after graph compiled selected executor state order (moment + 1) = .ok after ∧
      (RunEvent.startedIds after.events).Nodup ∧
      ((after.state = before.state ∧
          RunEvent.startedIds after.events = RunEvent.startedIds before.events) ∨
        ∃ model thread, Progress.Executes plan graph compiled selected executor before model
          thread after)) ∧
    ∃ last final,
      (∀ moment, 3 * (selected.filter graph.contains).size ≤ moment →
        plan.after graph compiled selected executor state order moment = .ok last) ∧
      plan.run graph compiled selected executor state order = .ok final ∧
      final.events = last.events ∧ final.state = last.state ∧
      (RunEvent.startedIds final.events).Nodup := by
  have keyed := made.keyed
  have dispatched : ∀ {moment : Nat} {progress : Progress σ},
      plan.after graph compiled selected executor state order moment = .ok progress →
      progress.Dispatched := by
    intro moment progress reached
    refine after_induction keyed (motive := fun _ progress => progress.Dispatched) ?_ ?_ reached
    · exact ⟨List.nodup_nil, fun id member => absurd member List.not_mem_nil,
        fun flight member => absurd member List.not_mem_nil⟩
    · intro _ before after accounted moves ih
      exact ih.moves keyed accounted moves
  constructor
  · intro moment
    obtain ⟨after, reached, -⟩ :=
      exists_after plan graph selected executor state order keyed (moment + 1)
    obtain ⟨before, earlier, accounted, moves⟩ := exists_before keyed reached
    exact ⟨before, after, earlier, reached, (dispatched reached).nodup,
      moves.executes_or keyed accounted⟩
  · obtain ⟨last, reached, -, -, run⟩ :=
      exists_run plan graph selected executor state order keyed
    obtain ⟨-, events, same⟩ := last.close_frame
    refine ⟨last, last.close, reached, run, events, same, ?_⟩
    rw [events]
    exact (dispatched (reached _ (Nat.le_refl _))).nodup

/-- Of two models, the second one is executed once the first one, which it depends on, has been
recorded as a success. -/
theorem RunPlan.executes_in_order_pair :
    ∃ project, Project.ofSources (.default "") Project.pairFiles = .ok project ∧
      ∃ before after model thread,
        onTwoThreads.after project.graph project.compile project.graph.nodes
          (.rehearsal .empty) () (fun _ => 0) 4 = .ok before ∧
        onTwoThreads.after project.graph project.compile project.graph.nodes
          (.rehearsal .empty) () (fun _ => 0) 5 = .ok after ∧
        Progress.Executes onTwoThreads project.graph project.compile project.graph.nodes
          (.rehearsal .empty) before model thread after ∧
        model.id = "model.modelflow_project.b" ∧
        ∃ result ∈ before.results, result.id = "model.modelflow_project.a" ∧
          result.status = .success := by
  obtain ⟨project, loaded, passes⟩ := Project.exists_loaded (.default "") Project.pairFiles
    (fun project : Project =>
      decide (("model.modelflow_project.a", "model.modelflow_project.b") ∈ project.graph.edges) &&
      ((onTwoThreads.after project.graph project.compile project.graph.nodes (.rehearsal .empty) ()
        (fun _ => 0) 4).toOption.any fun before : Progress Unit =>
          decide (RunEvent.startedIds before.events = ["model.modelflow_project.a"])) &&
      (onTwoThreads.after project.graph project.compile project.graph.nodes (.rehearsal .empty) ()
        (fun _ => 0) 5).toOption.any fun after : Progress Unit =>
          decide (RunEvent.startedIds after.events =
            ["model.modelflow_project.a", "model.modelflow_project.b"]))
    (by decide +kernel)
  obtain ⟨steps, -⟩ := executes_in_order (.ofProject loaded project.settings) onTwoThreads
    project.graph project.graph.nodes (.rehearsal .empty) () fun _ => 0
  obtain ⟨before, after, reached, next, -, executes⟩ := steps 4
  rw [reached, next] at passes
  simp only [Except.toOption, Option.any_some, Bool.and_eq_true, decide_eq_true_iff] at passes
  obtain ⟨⟨edge, first⟩, both⟩ := passes
  rcases executes with ⟨-, quiet⟩ | ⟨model, thread, executes⟩
  · rw [quiet, first] at both
    exact absurd (congrArg List.length both) (by decide)
  · rw [executes.events, RunEvent.startedIds_append, first, RunEvent.startedIds_started] at both
    have second : model.id = "model.modelflow_project.b" := by
      simpa using both
    have path : project.graph.Precedes "model.modelflow_project.a" model.id :=
      second ▸ .single edge
    exact ⟨project, loaded, before, after, model, thread, reached, next, executes, second,
      executes.ancestors _ path.mem_nodes.1 path⟩

end SqlPipeline
