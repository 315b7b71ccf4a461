import SqlPipeline.Proofs.Run.Accounting
import SqlPipeline.Proofs.Schedule.Liveness
import SqlPipeline.Run.Task

/-!
# The end of a run

Every step of a run does some work until the run rests, and the selected nodes of the graph bound
the work, so a run rests within its number of steps.  When what has not started is skipped then,
every selected node of the graph has exactly one result.
-/

namespace SqlPipeline

/-! ## Runs come to rest -/

namespace Progress

variable {σ : Type} {plan : RunPlan} {graph : Graph} {compiled : Compilation}
  {selected : NameSet} {executor : Executor σ} {before after last : Progress σ}

/-- How much has been done: a node counts once when it is in flight, twice when it has been executed
and three times when it is done. -/
def work (progress : Progress σ) : Nat :=
  3 * progress.results.length + progress.inFlight.length +
    progress.inFlight.countP (·.result?.isSome)

/-- Nothing is taken and nothing is in flight. -/
def Rests (progress : Progress σ) : Prop := progress.Waits ∧ progress.inFlight = []

theorem Takes.not_waits {thread : Nat} {others : List Nat} {name : String} {queue : Queue}
    (takes : before.Takes thread others name queue) : ¬ before.Waits := by
  rintro (stopping | none | empty)
  · rw [takes.going] at stopping
    cases stopping
  · rw [takes.free] at none
    cases none
  · obtain ⟨node, popped⟩ := takes.popped
    exact empty name popped.member

/-- A run that rests stays as it is. -/
theorem Rests.moves (rests : before.Rests)
    (moves : Moves plan graph compiled selected executor before after) : after = before := by
  cases moves with
  | rested => rfl
  | passed takes => exact absurd rests.1 takes.not_waits
  | launched takes => exact absurd rests.1 takes.not_waits
  | performed found =>
    rw [rests.2] at found
    cases found
  | completed _ found =>
    rw [rests.2] at found
    cases found

/-- Executing what is in flight adds to what has been executed. -/
theorem countP_called {flights : List InFlight} {position thread : Nat} {model : CompiledModel}
    {state : σ} (found : flights[position]? = some ⟨thread, model, none⟩) :
    (flights.set position (called plan executor state ⟨thread, model, none⟩)).countP
      (·.result?.isSome) = flights.countP (·.result?.isSome) + 1 := by
  obtain ⟨bound, flight⟩ := List.getElem?_eq_some_iff.mp found
  rw [List.countP_set bound, flight]
  simp [called]

/-- Every step of a run that does not rest does some work. -/
theorem Moves.work_lt (moves : Moves plan graph compiled selected executor before after)
    (busy : ¬ before.Rests) : before.work < after.work := by
  cases moves with
  | rested waits landed => exact absurd ⟨waits, landed⟩ busy
  | passed takes prepared recorded =>
    rw [work, work, recorded.results, recorded.inFlight]
    simp only [List.length_append, List.length_cons]
    omega
  | launched takes prepared =>
    simp only [work, Progress.launched, List.length_append, List.length_cons, List.length_nil,
      List.countP_append]
    omega
  | performed found =>
    simp only [work, Progress.performed, List.length_set, countP_called found]
    omega
  | @completed position thread model result skipped after waits found recorded =>
    have bound := (List.getElem?_eq_some_iff.mp found).1
    have parts := (perm_eraseIdx found).countP_eq (·.result?.isSome)
    rw [List.countP_cons_of_pos rfl] at parts
    rw [work, work, recorded.results, recorded.inFlight]
    simp only [landed, List.length_append, List.length_cons, List.length_eraseIdx_of_lt bound]
    omega

/-- The selected nodes of the graph bound what is done and in flight. -/
theorem Accounted.work_le (accounted : Accounted plan graph compiled selected [] before) :
    before.work ≤ 3 * (selected.filter graph.contains).size := by
  have ledger := accounted.ledger
  have nodup : (before.results.map (·.id) ++ before.inFlight.map (·.model.id)).Nodup := by
    refine ledger.nodup.append accounted.nodup fun name done flies => ?_
    obtain ⟨result, member, rfl⟩ := List.mem_map.mp done
    have held := ledger.status? result member
    have final := ledger.terminal result member
    rw [(accounted.running result.id).mpr flies] at held
    rw [← Option.some.inj held] at final
    cases final
  have inside : before.results.map (·.id) ++ before.inFlight.map (·.model.id) ⊆
      (selected.filter graph.contains).toList := by
    intro name member
    have held : ∃ status, before.queue.status? name = some status := by
      rcases List.mem_append.mp member with done | flies
      · obtain ⟨result, recorded, rfl⟩ := List.mem_map.mp done
        exact ⟨_, ledger.status? result recorded⟩
      · exact ⟨_, (accounted.running name).mpr flies⟩
    exact accounted.sound.mem_iff_status?.mpr held
  have bound := (nodup.subperm inside).length_le
  rw [List.length_append, List.length_map, List.length_map] at bound
  have executed := before.inFlight.countP_le_length (p := (·.result?.isSome))
  rw [work, NameSet.size]
  omega

end Progress

namespace RunPlan

variable {σ : Type} {plan : RunPlan} {graph : Graph} {compiled : Compilation}
  {selected : NameSet} {executor : Executor σ} {state : σ} {order : Nat → Nat}

open Progress

theorem size_ofGraph (graph : Graph) (selected : NameSet) :
    (Queue.ofGraph graph selected).nodes.size = (selected.filter graph.contains).size := by
  have tracks := Queue.tracks_ofGraph graph selected
  have same : (Queue.ofGraph graph selected).nodes.keys.Perm
      (selected.filter graph.contains).toList := by
    refine (List.perm_ext_iff_of_nodup (NameMap.nodup_keys _) (NameSet.nodup_toList _)).mpr ?_
    intro name
    rw [tracks.mem_iff_status?, NameMap.mem_keys]
    simp [Queue.status?]
  rw [← NameMap.length_keys, same.length_eq, NameSet.size]

/-- After three steps for every selected node of the graph, a run rests. -/
theorem exists_rests (plan : RunPlan) (graph : Graph) (selected : NameSet)
    (executor : Executor σ) (state : σ) (order : Nat → Nat) (keyed : compiled.Keyed) :
    ∃ last, plan.after graph compiled selected executor state order
        (3 * (selected.filter graph.contains).size) = .ok last ∧
      Accounted plan graph compiled selected [] last ∧ last.Rests := by
  let steps := 3 * (selected.filter graph.contains).size
  obtain ⟨last, reached, accounted⟩ :=
    exists_after plan graph selected executor state order keyed steps
  have busy : last.Rests ∨ steps ≤ last.work := by
    refine after_induction keyed (motive := fun moment progress =>
      progress.Rests ∨ moment ≤ progress.work) (.inr (Nat.zero_le _)) ?_ reached
    intro moment before after accounted moves ih
    by_cases rests : before.Rests
    · rw [rests.moves moves]
      exact .inl rests
    · have worked := moves.work_lt rests
      have enough := ih.resolve_left rests
      exact .inr (by omega)
  refine ⟨last, reached, accounted, ?_⟩
  -- One more step would bring the work above its bound.
  by_contra moving
  obtain ⟨next, -, moves⟩ := accounted.exists_moves executor 0
  have worked := moves.work_lt moving
  have bound := (accounted.moves keyed moves).work_le
  have enough := busy.resolve_left moving
  omega

/-- A run that rests stays as it is ever after. -/
theorem after_of_rests (keyed : compiled.Keyed) {moment : Nat} {last : Progress σ}
    (reached : plan.after graph compiled selected executor state order moment = .ok last)
    (rests : last.Rests) (extra : Nat) :
    plan.after graph compiled selected executor state order (moment + extra) = .ok last := by
  induction extra with
  | zero => exact reached
  | succ extra ih =>
    obtain ⟨next, later, -⟩ :=
      exists_after plan graph selected executor state order keyed (moment + extra + 1)
    obtain ⟨before, earlier, -, moves⟩ := exists_before keyed later
    obtain rfl := Except.ok.inj (ih.symm.trans earlier)
    rw [← Nat.add_assoc, later, rests.moves moves]

/-- A run comes to rest within its steps, and then it is closed. -/
theorem exists_run (plan : RunPlan) (graph : Graph) (selected : NameSet)
    (executor : Executor σ) (state : σ) (order : Nat → Nat) (keyed : compiled.Keyed) :
    ∃ last, (∀ moment, 3 * (selected.filter graph.contains).size ≤ moment →
        plan.after graph compiled selected executor state order moment = .ok last) ∧
      Accounted plan graph compiled selected [] last ∧ last.Rests ∧
      plan.run graph compiled selected executor state order = .ok last.close := by
  obtain ⟨last, reached, accounted, rests⟩ :=
    exists_rests plan graph selected executor state order keyed
  refine ⟨last, fun moment late => ?_, accounted, rests, ?_⟩
  · obtain ⟨extra, rfl⟩ := Nat.exists_eq_add_of_le late
    exact after_of_rests keyed reached rests extra
  · simp only [run, size_ofGraph, reached]
    rfl

end RunPlan

/-! ## Closing a run -/

namespace Progress

variable {σ : Type} {plan : RunPlan} {graph : Graph} {selected : NameSet} {last : Progress σ}

/-- Every node is done and has its result. -/
structure Complete (graph : Graph) (selected : NameSet) (progress : Progress σ) : Prop where
  sound : progress.queue.Sound graph selected
  ledger : progress.queue.Ledger progress.results
  terminal : ∀ name status, progress.queue.status? name = some status → status.isTerminal = true

theorem close_of_finished (finished : last.queue.isFinished = true) : last.close = last :=
  if_pos finished

theorem close_of_unfinished (unfinished : last.queue.isFinished = false) :
    last.close = { last with
      queue := last.queue.skipRemaining.2
      results := last.results ++ last.queue.skipRemaining.1.map fun name =>
        NodeResult.skipped name "Skipped: dependencies never completed" } := by
  simp [close, unfinished]

/-- Closing a run adds results of skipped nodes only. -/
theorem exists_results_close (progress : Progress σ) :
    ∃ names : List String, progress.close.results = progress.results ++ names.map fun name =>
      NodeResult.skipped name "Skipped: dependencies never completed" := by
  cases finished : progress.queue.isFinished with
  | true => exact ⟨[], by rw [close_of_finished finished, List.map_nil, List.append_nil]⟩
  | false => exact ⟨progress.queue.skipRemaining.1, by rw [close_of_unfinished finished]⟩

/-- Closing a run starts nothing. -/
theorem close_frame (progress : Progress σ) :
    progress.close.inFlight = progress.inFlight ∧ progress.close.events = progress.events ∧
      progress.close.state = progress.state := by
  unfold close
  split <;> exact ⟨rfl, rfl, rfl⟩

/-- What has not started is skipped with a result for each node. -/
theorem ledger_skipRemaining {queue : Queue} {results : List NodeResult}
    (tracks : queue.Tracks graph selected) (ledger : queue.Ledger results)
    (message : String → String) :
    queue.skipRemaining.2.Ledger (results ++ queue.skipRemaining.1.map fun name =>
      NodeResult.skipped name (message name)) := by
  have effect := tracks.skipRemaining
  refine ledger.append ?_ (fun result member => ?_) (fun result member status held => ?_)
    (fun result member => ?_) (fun name absent status final => ?_)
  · rw [map_id_skipped]
    exact (NameMap.nodup_keys _).sublist effect.sublist
  · rw [status_of_mem_skipped member]
    rfl
  · obtain ⟨name, skipped, rfl⟩ := List.mem_map.mp member
    have waits : queue.status? name = some status := held
    rw [tracks.mem_skipRemaining.mp skipped] at waits
    cases waits
    rfl
  · obtain ⟨name, skipped, rfl⟩ := List.mem_map.mp member
    exact (effect.status? name).trans (if_pos skipped)
  · rw [map_id_skipped] at absent
    rw [effect.status?, if_neg absent]

/-- When nothing is in flight, what has not started is skipped, and then every node is done. -/
theorem Accounted.complete_close (accounted : Accounted plan graph compiled selected [] last)
    (landed : last.inFlight = []) : Complete graph selected last.close := by
  have sound := accounted.sound
  cases finished : last.queue.isFinished with
  | true =>
    rw [close_of_finished finished]
    exact ⟨sound, accounted.ledger, Queue.isFinished_iff.mp finished⟩
  | false =>
    rw [close_of_unfinished finished]
    refine ⟨sound.skipRemaining, ledger_skipRemaining sound.toTracks accounted.ledger _,
      fun name status held => ?_⟩
    rw [sound.toTracks.skipRemaining.status?] at held
    split at held
    · cases held
      rfl
    next started =>
      cases status with
      | success | error | skipped => rfl
      | pending => exact absurd (sound.toTracks.mem_skipRemaining.mpr held) started
      | running =>
        have member := (accounted.running name).mp held
        rw [landed] at member
        cases member

/-- In a complete run, every selected node of the graph has exactly one result. -/
theorem Complete.results_perm (complete : Complete graph selected last) :
    (last.results.map (·.id)).Perm (selected.filter graph.contains).toList := by
  have ledger := complete.ledger
  refine (List.perm_ext_iff_of_nodup ledger.nodup (NameSet.nodup_toList _)).mpr fun name => ?_
  rw [complete.sound.mem_iff_status?]
  constructor
  · intro member
    obtain ⟨result, recorded, rfl⟩ := List.mem_map.mp member
    exact ⟨_, ledger.status? result recorded⟩
  · rintro ⟨status, held⟩
    obtain ⟨result, recorded, rfl⟩ := ledger.complete name status held
      (complete.terminal name status held)
    exact List.mem_map_of_mem recorded

end Progress

/-- Results that are final are successes, errors or skipped ones. -/
theorem Execution.summary_total (execution : Execution)
    (terminal : ∀ result ∈ execution.results, result.status.isTerminal = true) :
    execution.summary.success + execution.summary.error + execution.summary.skipped =
      execution.summary.total := by
  simp only [summary, count]
  revert terminal
  induction execution.results with
  | nil => exact fun _ => rfl
  | cons result results ih =>
    intro terminal
    have rest := ih fun other member => terminal other (List.mem_cons_of_mem result member)
    have final := terminal result List.mem_cons_self
    simp only [List.countP_cons, List.length_cons]
    cases held : result.status with
    | pending | running =>
      rw [held] at final
      cases final
    | success | error | skipped =>
      simp
      omega

/-- Whatever the graph, the selection, the command, the threads, the executor and the order in which
executions complete, a run of a compiled project comes to rest and ends without an error.  Then
nothing is in flight, every selected node of the graph has exactly one result, nothing else has one,
and every result is a success, an error or a skipped node. -/
theorem RunPlan.run_accounts {σ : Type} {compiled : Compilation} (made : compiled.Made)
    (plan : RunPlan) (graph : Graph) (selected : NameSet) (executor : Executor σ) (state : σ)
    (order : Nat → Nat) :
    ∃ last final,
      (∀ moment, 3 * (selected.filter graph.contains).size ≤ moment →
        plan.after graph compiled selected executor state order moment = .ok last) ∧
      plan.run graph compiled selected executor state order = .ok final ∧
      final = last.close ∧ final.inFlight = [] ∧
      (final.results.map (·.id)).Perm (selected.filter graph.contains).toList ∧
      (∀ result ∈ final.results, result.status = .success ∨ result.status = .error ∨
        result.status = .skipped) ∧
      ∀ args clock, ∃ success error skipped,
        (RunTask.outcome args clock final).execution.summary =
          ⟨(selected.filter graph.contains).size, success, error, skipped⟩ ∧
        success + error + skipped = (selected.filter graph.contains).size := by
  obtain ⟨last, reached, accounted, rests, run⟩ :=
    exists_run plan graph selected executor state order made.keyed
  have complete := accounted.complete_close rests.2
  have perm := complete.results_perm
  have landed := last.close_frame.1.trans rests.2
  refine ⟨last, last.close, reached, run, rfl, landed, perm, fun result member => ?_,
    fun args clock => ?_⟩
  · have final := complete.ledger.terminal result member
    cases held : result.status with
    | success => exact .inl rfl
    | error => exact .inr (.inl rfl)
    | skipped => exact .inr (.inr rfl)
    | pending | running =>
      rw [held] at final
      cases final
  · have total : (RunTask.outcome args clock last.close).execution.summary.total =
        (selected.filter graph.contains).size := by
      rw [NameSet.size, ← perm.length_eq, List.length_map]
      rfl
    have sum := (RunTask.outcome args clock last.close).execution.summary_total
      complete.ledger.terminal
    exact ⟨_, _, _, by rw [← total], sum.trans total⟩

/-- A run on two threads that goes on after an error. -/
def RunPlan.onTwoThreads : RunPlan :=
  ⟨.run, 2, false, ⟨⟨0, 0⟩, .ofInt 0, .ofInt 0⟩⟩

/-- Both models of a project have one result after a run of all its models. -/
theorem RunPlan.run_accounts_pair :
    ∃ project, Project.ofSources (.default "") Project.pairFiles = .ok project ∧
      ∃ final, onTwoThreads.run project.graph project.compile project.graph.nodes
          (.rehearsal .empty) () (fun _ => 0) = .ok final ∧
        (final.results.map (·.id)).Perm
          (project.graph.nodes.filter project.graph.contains).toList := by
  obtain ⟨project, loaded⟩ := Project.exists_pair
  obtain ⟨_, final, -, run, -, -, perm, -⟩ :=
    run_accounts (.ofProject loaded project.settings) onTwoThreads project.graph
      project.graph.nodes (.rehearsal .empty) () fun _ => 0
  exact ⟨project, loaded, final, run, perm⟩

end SqlPipeline
