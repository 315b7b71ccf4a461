import SqlPipeline.Proofs.Schedule.Skipping
import SqlPipeline.Run.Progress

/-!
# Steps of a run

A step of a run passes a node with nothing to execute, hands a node to a thread, executes what a
thread was handed, completes an execution, or finds nothing to do.  The file says once what each of
them changes, and proves that a step of a run with a sound queue never fails.
-/

namespace SqlPipeline

/-! ## Results of single nodes -/

namespace RunPlan

variable {plan : RunPlan} {compiled : Compilation} {id : String} {result : NodeResult}
  {model : CompiledModel}

/-- The result of a node that ends at once tells what it builds if the node has been compiled. -/
theorem prepare_done_cases (prepared : plan.prepare compiled id = .done result) :
    ∃ status message, (status = .success ∨ status = .error) ∧
      (result = plan.finished id status message ∨
        ∃ model, compiled.get? id = some (.ok model) ∧
          result = plan.finishedModel model id status message) := by
  unfold prepare at prepared
  split at prepared
  · cases prepared
    exact ⟨_, _, .inr rfl, .inl rfl⟩
  · cases prepared
    exact ⟨_, _, .inr rfl, .inl rfl⟩
  next model found =>
    split at prepared
    · cases prepared
      exact ⟨_, _, .inr rfl, .inr ⟨model, found, rfl⟩⟩
    · split at prepared
      · cases prepared
        exact ⟨_, _, .inl rfl, .inr ⟨model, found, rfl⟩⟩
      · split at prepared <;> cases prepared
        exact ⟨_, _, .inl rfl, .inr ⟨model, found, rfl⟩⟩

/-- A node that ends at once succeeds or fails under its own id. -/
theorem prepare_done (prepared : plan.prepare compiled id = .done result) :
    result.id = id ∧ (result.status = .success ∨ result.status = .error) := by
  obtain ⟨status, message, final, rfl | ⟨model, -, rfl⟩⟩ := prepare_done_cases prepared
  · exact ⟨rfl, final⟩
  · exact ⟨rfl, final⟩

/-- A node that ends at once needs no thread. -/
theorem thread_of_prepare_done (prepared : plan.prepare compiled id = .done result) :
    result.thread = none := by
  obtain ⟨status, message, -, rfl | ⟨model, -, rfl⟩⟩ := prepare_done_cases prepared
  · rfl
  · rfl

/-- What is executed has been compiled, can be built by the command and has a statement. -/
theorem prepare_execute (prepared : plan.prepare compiled id = .execute model) :
    compiled.get? id = some (.ok model) ∧ plan.command.supports model.materialization = true ∧
      plan.command.executes = true ∧ model.statement.isSome = true := by
  unfold prepare at prepared
  split at prepared
  · cases prepared
  · cases prepared
  next found =>
    split at prepared
    · cases prepared
    next supported =>
      split at prepared
      · cases prepared
      next executes =>
        split at prepared <;> cases prepared
        next present =>
          refine ⟨found, ?_, ?_, ?_⟩
          · simpa using supported
          · simpa using executes
          · simpa [Option.isSome_iff_ne_none] using present

@[simp]
theorem executed_id (plan : RunPlan) (model : CompiledModel) (thread : Nat)
    (outcome : Except ExecuteError String) : (plan.executed model thread outcome).id = model.id :=
  rfl

theorem executed_status (plan : RunPlan) (model : CompiledModel) (thread : Nat)
    (outcome : Except ExecuteError String) :
    (plan.executed model thread outcome).status = if outcome.isOk then .success else .error := by
  cases outcome <;> rfl

end RunPlan

/-! ## Recording a result -/

namespace Queue

variable {graph : Graph} {selected : NameSet} {before middle after : Queue} {name : String}
  {listed : List String} {node : ScheduledNode} {status : NodeStatus}

/-- A node is done, and the nodes of a list, none of which had started, are skipped. -/
structure Settled (graph : Graph) (selected : NameSet) (before : Queue) (name : String)
    (status : NodeStatus) (skipped : List String) (after : Queue) : Prop where
  sound : after.Sound graph selected
  nodup : skipped.Nodup
  pending : ∀ other ∈ skipped, before.status? other = some .pending
  status? : ∀ other, after.status? other =
    if other = name then some status
    else if other ∈ skipped then some .skipped
    else before.status? other

theorem Sound.settled_success (sound : before.Sound graph selected)
    (effect : Succeeded before name node listed after) :
    Settled graph selected before name .success [] after where
  sound := sound.succeeded effect
  nodup := List.nodup_nil
  pending _ member := absurd member List.not_mem_nil
  status? other := by simp [effect.status?]

theorem Sound.settled_failure (sound : before.Sound graph selected)
    (effect : Failed before name node status listed after) :
    Settled graph selected before name status listed after where
  sound := sound.failed effect
  nodup := (nodup_descendants _ name).sublist effect.skipped.sublist
  pending _ member := ((effect.mem_listed sound.toTracks).mp member).2
  status? := effect.status?

/-- What is skipped after a node is done adds to what is skipped because of it. -/
theorem Settled.skipRemaining (settled : Settled graph selected before name status listed middle)
    (final : status.isTerminal = true) :
    Settled graph selected before name status (listed ++ middle.skipRemaining.1)
      middle.skipRemaining.2 := by
  have tracks := settled.sound.toTracks
  have rest : ∀ other ∈ middle.skipRemaining.1, other ≠ name ∧ other ∉ listed ∧
      before.status? other = some .pending := by
    intro other member
    have waits := tracks.mem_skipRemaining.mp member
    rw [settled.status?] at waits
    split at waits
    · cases waits
      cases final
    · split at waits
      · cases waits
      · exact ⟨‹_›, ‹_›, waits⟩
  refine ⟨settled.sound.skipRemaining, ?_, fun other member => ?_, fun other => ?_⟩
  · have nodup := (NameMap.nodup_keys _).sublist tracks.skipRemaining.sublist
    exact settled.nodup.append nodup fun other member later => (rest other later).2.1 member
  · rcases List.mem_append.mp member with earlier | later
    · exact settled.pending other earlier
    · exact (rest other later).2.2
  · rw [tracks.skipRemaining.status?, settled.status?]
    by_cases later : other ∈ middle.skipRemaining.1
    · simp [later, (rest other later).1]
    · simp [later]

end Queue

namespace Progress

variable {σ : Type} {plan : RunPlan} {graph : Graph} {compiled : Compilation}
  {selected : NameSet} {executor : Executor σ} {before after : Progress σ} {result : NodeResult}
  {skipped : List NodeResult}

/-- The result of a node is recorded, with those of the nodes that are skipped after it. -/
structure Recorded (plan : RunPlan) (graph : Graph) (selected : NameSet) (before : Progress σ)
    (result : NodeResult) (skipped : List NodeResult) (after : Progress σ) : Prop where
  settled : Queue.Settled graph selected before.queue result.id result.status (skipped.map (·.id))
    after.queue
  results : after.results = before.results ++ result :: skipped
  status_of_mem : ∀ other ∈ skipped, other.status = .skipped
  /-- Every result of a skipped node tells whether another node or failing fast kept it back. -/
  reason : ∀ other ∈ skipped, other = skippedBecause ⟨other.id, result.id⟩ ∨
    other = .skipped other.id "Skipped after an earlier failure (fail fast)"
  /-- Once a run fails fast, nothing waits. -/
  halted : result.status = .error → plan.failFast = true →
    ∀ name, after.queue.status? name ≠ some .pending
  /-- Unless the run fails fast, only what lies below a node that fails is skipped. -/
  below : plan.failFast = false → ∀ other ∈ skipped, result.status = .error ∧
    Relation.TransGen (graph.Feeds selected) result.id other.id
  stopping : after.stopping = (before.stopping || decide (result.status = .error) && plan.failFast)
  inFlight : after.inFlight = before.inFlight
  freeThreads : after.freeThreads = before.freeThreads
  events : after.events = before.events
  state : after.state = before.state

/-- The results of skipped nodes, one for each name. -/
theorem map_id_skipped (names : List String) (message : String → String) :
    (names.map fun name => NodeResult.skipped name (message name)).map (·.id) = names := by
  rw [List.map_map]
  exact List.map_id names

theorem status_of_mem_skipped {names : List String} {message : String → String}
    {other : NodeResult}
    (member : other ∈ names.map fun name => NodeResult.skipped name (message name)) :
    other.status = .skipped := by
  obtain ⟨name, -, rfl⟩ := List.mem_map.mp member
  rfl

theorem exists_recorded_success (before : Progress σ) (plan : RunPlan)
    (sound : before.queue.Sound graph selected)
    (running : before.queue.status? result.id = some .running)
    (success : result.status = .success) :
    ∃ skipped after, record plan before result = .ok after ∧
      Recorded plan graph selected before result skipped after := by
  obtain ⟨node, listed, queue, run, effect⟩ := sound.toTracks.exists_succeeded running
  refine ⟨[], { before with queue, results := before.results ++ [result] }, ?_, ?_, rfl, by simp,
    by simp, by simp [success], by simp, by simp [success], rfl, rfl, rfl, rfl⟩
  · simp only [record, success, run]
    rfl
  · rw [success]
    exact sound.settled_success effect

theorem exists_recorded_error (before : Progress σ) (plan : RunPlan)
    (sound : before.queue.Sound graph selected)
    (running : before.queue.status? result.id = some .running) (error : result.status = .error) :
    ∃ skipped after, record plan before result = .ok after ∧
      Recorded plan graph selected before result skipped after := by
  obtain ⟨node, found, runs⟩ := Queue.status?_eq_some_iff.mp running
  obtain ⟨listed, queue, run, effect⟩ :=
    Queue.exists_markDone_failure found runs (show NodeStatus.error.hasFailed = true from rfl)
  have settled := sound.settled_failure effect
  let own := listed.map fun name =>
    NodeResult.skipped name ("Skipped because upstream '" ++ result.id ++ "' did not succeed")
  let rest := queue.skipRemaining.1.map fun name =>
    NodeResult.skipped name "Skipped after an earlier failure (fail fast)"
  have because : ∀ other ∈ own, other = skippedBecause ⟨other.id, result.id⟩ := by
    intro other member
    obtain ⟨name, -, rfl⟩ := List.mem_map.mp member
    rfl
  cases fast : plan.failFast with
  | true =>
    refine ⟨own ++ rest, { before with
      queue := queue.skipRemaining.2
      results := before.results ++ result :: (own ++ rest)
      stopping := true }, ?_, ?_, rfl, fun other member => ?_, fun other member => ?_,
      fun _ _ => settled.sound.toTracks.not_pending_skipRemaining, by simp [fast],
      by simp [error, fast], rfl, rfl, rfl, rfl⟩
    · simp only [record, error, run, fast]
      simp [own, rest, skippedBecause, bind, Except.bind]
    · rw [error, List.map_append, map_id_skipped, map_id_skipped]
      exact settled.skipRemaining rfl
    · rcases List.mem_append.mp member with member | member
      · exact status_of_mem_skipped member
      · exact status_of_mem_skipped member
    · rcases List.mem_append.mp member with member | member
      · exact .inl (because other member)
      · obtain ⟨name, -, rfl⟩ := List.mem_map.mp member
        exact .inr rfl
  | false =>
    refine ⟨own, { before with queue, results := before.results ++ result :: own },
      ?_, ?_, rfl, fun other member => status_of_mem_skipped member,
      fun other member => .inl (because other member), by simp [fast], fun _ other member => ?_,
      by simp [fast], rfl, rfl, rfl, rfl⟩
    · simp only [record, error, run, fast]
      simp [own, skippedBecause, bind, Except.bind]
    · rw [error, map_id_skipped]
      exact settled
    · obtain ⟨name, listing, rfl⟩ := List.mem_map.mp member
      exact ⟨error, ((effect.mem_listed sound.toTracks).mp listing).1.1⟩

/-- The result of a running node can be recorded. -/
theorem exists_recorded (before : Progress σ) (plan : RunPlan)
    (sound : before.queue.Sound graph selected)
    (running : before.queue.status? result.id = some .running)
    (final : result.status = .success ∨ result.status = .error) :
    ∃ skipped after, record plan before result = .ok after ∧
      Recorded plan graph selected before result skipped after := by
  rcases final with success | error
  · exact exists_recorded_success before plan sound running success
  · exact exists_recorded_error before plan sound running error

/-! ## Steps -/

/-- Nothing is taken: the run is stopping, no thread is free or no node is ready. -/
def Waits (progress : Progress σ) : Prop :=
  progress.stopping = true ∨ progress.freeThreads = [] ∨ ∀ name, name ∉ progress.queue.ready

/-- A ready node is taken from the queue while a thread is free. -/
structure Takes (before : Progress σ) (thread : Nat) (others : List Nat) (name : String)
    (queue : Queue) : Prop where
  going : before.stopping = false
  free : before.freeThreads = thread :: others
  popped : ∃ node, Queue.Popped before.queue name node queue

/-- The run when a model has been handed to a thread. -/
def launched (progress : Progress σ) (queue : Queue) (model : CompiledModel) (thread : Nat)
    (others : List Nat) : Progress σ :=
  { progress with
    queue
    inFlight := progress.inFlight ++ [⟨thread, model, none⟩]
    freeThreads := others }

/-- An execution in flight when the executor has been called in a state. -/
def called (plan : RunPlan) (executor : Executor σ) (state : σ) (flight : InFlight) : InFlight :=
  { flight with
    result? := some (plan.executed flight.model flight.thread (executor flight.model state).1) }

/-- The run when an execution in flight has been executed. -/
def performed (plan : RunPlan) (executor : Executor σ) (progress : Progress σ) (position : Nat)
    (flight : InFlight) : Progress σ :=
  { progress with
    inFlight := progress.inFlight.set position (called plan executor progress.state flight)
    events := progress.events ++ [.started flight.model.id flight.thread]
    state := (executor flight.model progress.state).2 }

/-- The run when an execution in flight has ended and its result is still to be recorded. -/
def landed (progress : Progress σ) (position thread : Nat) (result : NodeResult) : Progress σ :=
  { progress with
    inFlight := progress.inFlight.eraseIdx position
    freeThreads := thread :: progress.freeThreads
    events := progress.events ++ [.completed result.id] }

/-- What is in flight is what is found at a position and the rest. -/
theorem perm_eraseIdx {flights : List InFlight} {position : Nat} {flight : InFlight}
    (found : flights[position]? = some flight) :
    (flight :: flights.eraseIdx position).Perm flights := by
  obtain ⟨bound, rfl⟩ := List.getElem?_eq_some_iff.mp found
  exact List.getElem_cons_eraseIdx_perm bound

/-- What a step of a run can do. -/
inductive Moves (plan : RunPlan) (graph : Graph) (compiled : Compilation) (selected : NameSet)
    (executor : Executor σ) (before : Progress σ) : Progress σ → Prop
  /-- There is nothing to do. -/
  | rested (waits : before.Waits) (landed : before.inFlight = []) :
      Moves plan graph compiled selected executor before before
  /-- A node is taken and done at once. -/
  | passed {thread : Nat} {others : List Nat} {name : String} {queue : Queue}
      {result : NodeResult} {skipped : List NodeResult} {after : Progress σ}
      (takes : before.Takes thread others name queue)
      (prepared : plan.prepare compiled name = .done result)
      (recorded : Recorded plan graph selected { before with queue } result skipped after) :
      Moves plan graph compiled selected executor before after
  /-- A node is taken and handed to a thread. -/
  | launched {thread : Nat} {others : List Nat} {name : String} {queue : Queue}
      {model : CompiledModel} (takes : before.Takes thread others name queue)
      (prepared : plan.prepare compiled name = .execute model) :
      Moves plan graph compiled selected executor before
        (before.launched queue model thread others)
  /-- A thread executes what it was handed. -/
  | performed {position thread : Nat} {model : CompiledModel}
      (found : before.inFlight[position]? = some ⟨thread, model, none⟩) :
      Moves plan graph compiled selected executor before
        (before.performed plan executor position ⟨thread, model, none⟩)
  /-- An execution in flight completes. -/
  | completed {position thread : Nat} {model : CompiledModel} {result : NodeResult}
      {skipped : List NodeResult} {after : Progress σ} (waits : before.Waits)
      (found : before.inFlight[position]? = some ⟨thread, model, some result⟩)
      (recorded : Recorded plan graph selected (before.landed position thread result) result
        skipped after) :
      Moves plan graph compiled selected executor before after

/-- Nothing is taken while the run waits. -/
theorem canTake_of_waits (waits : before.Waits) : before.canTake = false := by
  rw [canTake, Bool.and_eq_false_iff, Bool.and_eq_false_iff]
  rcases waits with stopping | none | empty
  · exact .inl (.inl (by rw [stopping]; rfl))
  · exact .inl (.inr (by rw [none]; rfl))
  · exact .inr (by rw [Queue.popReady_of_empty empty]; rfl)

theorem Takes.status? {thread : Nat} {others : List Nat} {name : String} {queue : Queue}
    (takes : before.Takes thread others name queue) (other : String) :
    queue.status? other = if other = name then some .running else before.queue.status? other := by
  obtain ⟨node, popped⟩ := takes.popped
  exact popped.status? other

theorem Takes.pending {thread : Nat} {others : List Nat} {name : String} {queue : Queue}
    (takes : before.Takes thread others name queue) (sound : before.queue.Sound graph selected) :
    before.queue.status? name = some .pending := by
  obtain ⟨node, popped⟩ := takes.popped
  exact sound.status?_of_ready popped.member

theorem Takes.sound {thread : Nat} {others : List Nat} {name : String} {queue : Queue}
    (takes : before.Takes thread others name queue) (sound : before.queue.Sound graph selected) :
    queue.Sound graph selected := by
  obtain ⟨node, popped⟩ := takes.popped
  exact sound.popped popped

/-- A run waits, or it takes the least ready node. -/
theorem waits_or_takes (sound : before.queue.Sound graph selected) :
    before.Waits ∨ ∃ thread others name queue, before.Takes thread others name queue ∧
      before.queue.popReady = (some name, queue) := by
  cases going : before.stopping with
  | true => exact .inl (.inl going)
  | false =>
    cases free : before.freeThreads with
    | nil => exact .inl (.inr (.inl free))
    | cons thread others =>
      rcases sound.toTracks.popReady_cases with ⟨empty, -⟩ | ⟨name, node, queue, run, popped⟩
      · exact .inl (.inr (.inr empty))
      · exact .inr ⟨thread, others, name, queue, ⟨going, free, node, popped⟩, run⟩

theorem canTake_of_takes {thread : Nat} {others : List Nat} {name : String} {queue : Queue}
    (takes : before.Takes thread others name queue)
    (run : before.queue.popReady = (some name, queue)) : before.canTake = true := by
  rw [canTake, takes.going, takes.free, run]
  rfl

theorem take_of_takes {thread : Nat} {others : List Nat} {name : String} {queue : Queue}
    (takes : before.Takes thread others name queue)
    (run : before.queue.popReady = (some name, queue)) :
    before.take plan compiled =
      match plan.prepare compiled name with
      | .done result => record plan { before with queue } result
      | .execute model => .ok (before.launched queue model thread others) := by
  rw [take, takes.free, run]
  rfl

theorem execute_of_found {position : Nat} {flight : InFlight}
    (found : before.inFlight[position]? = some flight) :
    before.execute plan executor position = before.performed plan executor position flight := by
  rw [execute, found]
  rfl

theorem complete_of_found {position thread : Nat} {model : CompiledModel}
    (found : before.inFlight[position]? = some ⟨thread, model, some result⟩) :
    before.complete plan position = record plan (before.landed position thread result) result := by
  rw [complete, found]
  rfl

/-! ## Possible moves -/

theorem mem_positions {test : InFlight → Bool} {position : Nat} :
    position ∈ before.positions test ↔
      ∃ flight, before.inFlight[position]? = some flight ∧ test flight = true := by
  rw [positions, List.mem_filter, List.mem_range, Option.any_eq_true]
  refine and_iff_right_of_imp ?_
  rintro ⟨flight, found, -⟩
  exact (List.getElem?_eq_some_iff.mp found).1

theorem execute_mem_possibleMoves {position : Nat} :
    .execute position ∈ before.possibleMoves ↔
      ∃ thread model, before.inFlight[position]? = some ⟨thread, model, none⟩ := by
  have listed : .execute position ∈ before.possibleMoves ↔
      position ∈ before.positions (·.result?.isNone) := by
    rw [possibleMoves]
    split <;> simp
  rw [listed, mem_positions]
  constructor
  · rintro ⟨⟨thread, model, result⟩, found, fresh⟩
    obtain rfl := Option.isNone_iff_eq_none.mp fresh
    exact ⟨thread, model, found⟩
  · rintro ⟨thread, model, found⟩
    exact ⟨_, found, rfl⟩

theorem complete_mem_possibleMoves {position : Nat} :
    .complete position ∈ before.possibleMoves ↔ before.canTake = false ∧
      ∃ thread model result, before.inFlight[position]? = some ⟨thread, model, some result⟩ := by
  have listed : .complete position ∈ before.possibleMoves ↔
      before.canTake = false ∧ position ∈ before.positions (·.result?.isSome) := by
    rw [possibleMoves]
    cases before.canTake <;> simp
  rw [listed, mem_positions]
  refine and_congr_right fun _ => ?_
  constructor
  · rintro ⟨⟨thread, model, result⟩, found, ended⟩
    obtain ⟨result, rfl⟩ := Option.isSome_iff_exists.mp ended
    exact ⟨thread, model, result, found⟩
  · rintro ⟨thread, model, result, found⟩
    exact ⟨_, found, rfl⟩

theorem take_mem_possibleMoves : .take ∈ before.possibleMoves ↔ before.canTake = true := by
  rw [possibleMoves]
  cases before.canTake <;> simp

/-- As long as something is in flight, it can be executed or completed. -/
theorem inFlight_of_possibleMoves (none : before.possibleMoves = []) : before.inFlight = [] := by
  by_contra some
  have bound := List.length_pos_iff.mpr some
  have absent : ∀ chosen, chosen ∉ before.possibleMoves := fun chosen member => by
    rw [none] at member
    cases member
  have idle : before.canTake = false :=
    Bool.eq_false_iff.mpr fun taking => absent _ (take_mem_possibleMoves.mpr taking)
  cases first : before.inFlight[0] with
  | mk thread model result =>
    have found := List.getElem?_eq_some_iff.mpr ⟨bound, first⟩
    cases result with
    | none => exact absent _ (execute_mem_possibleMoves.mpr ⟨thread, model, found⟩)
    | some result =>
      exact absent _ (complete_mem_possibleMoves.mpr ⟨idle, thread, model, result, found⟩)

theorem step_of_no_moves (plan : RunPlan) (compiled : Compilation) (executor : Executor σ)
    (number : Nat) (none : before.possibleMoves = []) :
    before.step plan compiled executor number = .ok before := by
  rw [step, none]
  rfl

/-- A step makes one of the moves that are possible, if there is any. -/
theorem exists_move (plan : RunPlan) (compiled : Compilation) (executor : Executor σ)
    (number : Nat) (some : before.possibleMoves ≠ []) :
    ∃ chosen ∈ before.possibleMoves,
      before.step plan compiled executor number = before.move plan compiled executor chosen := by
  have bound := Nat.mod_lt number (List.length_pos_iff.mpr some)
  refine ⟨_, List.getElem_mem bound, ?_⟩
  rw [step, List.getElem?_eq_getElem bound]

/-- A step never fails while the queue is sound, and what is in flight runs and has a result, if
any, that ends it. -/
theorem exists_moves (plan : RunPlan) (compiled : Compilation) (executor : Executor σ)
    (number : Nat) (sound : before.queue.Sound graph selected)
    (running : ∀ flight ∈ before.inFlight, ∀ result, flight.result? = some result →
      before.queue.status? result.id = some .running)
    (final : ∀ flight ∈ before.inFlight, ∀ result, flight.result? = some result →
      result.status = .success ∨ result.status = .error) :
    ∃ after, before.step plan compiled executor number = .ok after ∧
      Moves plan graph compiled selected executor before after := by
  have choice := waits_or_takes sound
  by_cases none : before.possibleMoves = []
  · refine ⟨before, step_of_no_moves plan compiled executor number none, ?_⟩
    have waits := choice.resolve_right fun ⟨thread, others, name, queue, takes, run⟩ => by
      have member := take_mem_possibleMoves.mpr (canTake_of_takes takes run)
      rw [none] at member
      cases member
    exact .rested waits (inFlight_of_possibleMoves none)
  obtain ⟨chosen, member, made⟩ := exists_move plan compiled executor number none
  rw [made]
  cases chosen with
  | take =>
    have taking := take_mem_possibleMoves.mp member
    obtain ⟨thread, others, name, queue, takes, run⟩ := choice.resolve_left fun waits => by
      rw [canTake_of_waits waits] at taking
      cases taking
    rw [move, take_of_takes takes run]
    cases prepared : plan.prepare compiled name with
    | done result =>
      obtain ⟨same, final⟩ := RunPlan.prepare_done prepared
      have runs : queue.status? result.id = some .running := by
        rw [takes.status?, if_pos same]
      obtain ⟨skipped, after, recorded, effect⟩ :=
        exists_recorded { before with queue } plan (takes.sound sound) runs final
      exact ⟨after, recorded, .passed takes prepared effect⟩
    | execute model => exact ⟨_, rfl, .launched takes prepared⟩
  | execute position =>
    obtain ⟨thread, model, found⟩ := execute_mem_possibleMoves.mp member
    refine ⟨_, ?_, .performed found⟩
    rw [move, execute_of_found found]
  | complete position =>
    obtain ⟨idle, thread, model, result, found⟩ := complete_mem_possibleMoves.mp member
    have waits := choice.resolve_right fun ⟨_, _, _, _, takes, run⟩ => by
      rw [canTake_of_takes takes run] at idle
      cases idle
    have flies := List.mem_of_getElem? found
    obtain ⟨skipped, after, recorded, effect⟩ :=
      exists_recorded (before.landed position thread result) plan sound
        (running _ flies result rfl) (final _ flies result rfl)
    exact ⟨after, by rw [move, complete_of_found found, recorded], .completed waits found effect⟩

end Progress
end SqlPipeline
