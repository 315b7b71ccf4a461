import SqlPipeline.Proofs.Build.Compilation
import SqlPipeline.Proofs.Run.Step

/-!
# Accounting for the nodes of a run

At every moment of a run, the nodes that are done are exactly those with a result, each with one,
and the nodes that run are exactly those in flight.  Every thread is free or carries one execution.
Every step keeps these books, so no step fails.
-/

namespace SqlPipeline

namespace Queue

variable {before after : Queue} {results new : List NodeResult} {name : String}

/-- The nodes that are done are those with a result, and each has one. -/
structure Ledger (queue : Queue) (results : List NodeResult) : Prop where
  nodup : (results.map (·.id)).Nodup
  terminal : ∀ result ∈ results, result.status.isTerminal = true
  status? : ∀ result ∈ results, queue.status? result.id = some result.status
  complete : ∀ name status, queue.status? name = some status → status.isTerminal = true →
    ∃ result ∈ results, result.id = name

theorem Tracks.mem_iff_status? {graph : Graph} {selected : NameSet} {queue : Queue}
    (tracks : queue.Tracks graph selected) :
    name ∈ (selected.filter graph.contains).toList ↔
      ∃ status, queue.status? name = some status := by
  rw [NameSet.mem_toList, NameSet.mem_filter, Graph.contains_iff, ← tracks.holds name]
  simp [Queue.status?]

/-- New results are added for nodes that end, while no other node ends. -/
theorem Ledger.append (ledger : before.Ledger results) (nodup : (new.map (·.id)).Nodup)
    (terminal : ∀ result ∈ new, result.status.isTerminal = true)
    (unfinished : ∀ result ∈ new, ∀ status, before.status? result.id = some status →
      status.isTerminal = false)
    (ended : ∀ result ∈ new, after.status? result.id = some result.status)
    (others : ∀ name, name ∉ new.map (·.id) → ∀ status, status.isTerminal = true →
      (after.status? name = some status ↔ before.status? name = some status)) :
    after.Ledger (results ++ new) := by
  have apart : ∀ result ∈ results, result.id ∉ new.map (·.id) := by
    intro result member inside
    obtain ⟨other, later, same⟩ := List.mem_map.mp inside
    have held := ledger.status? result member
    rw [← same] at held
    have running := unfinished other later result.status held
    rw [ledger.terminal result member] at running
    cases running
  refine ⟨?_, fun result member => ?_, fun result member => ?_, fun name status held final => ?_⟩
  · rw [List.map_append]
    refine ledger.nodup.append nodup fun name earlier later => ?_
    obtain ⟨result, member, rfl⟩ := List.mem_map.mp earlier
    exact apart result member later
  · rcases List.mem_append.mp member with earlier | later
    · exact ledger.terminal result earlier
    · exact terminal result later
  · rcases List.mem_append.mp member with earlier | later
    · exact (others result.id (apart result earlier) _ (ledger.terminal result earlier)).mpr
        (ledger.status? result earlier)
    · exact ended result later
  · by_cases inside : name ∈ new.map (·.id)
    · obtain ⟨result, member, same⟩ := List.mem_map.mp inside
      exact ⟨result, List.mem_append_right _ member, same⟩
    · obtain ⟨result, member, same⟩ :=
        ledger.complete name status ((others name inside status final).mp held) final
      exact ⟨result, List.mem_append_left _ member, same⟩

/-- A node that is done has a result with its status. -/
theorem Ledger.exists_result {queue : Queue} (ledger : queue.Ledger results) {status : NodeStatus}
    (held : queue.status? name = some status) (final : status.isTerminal = true) :
    ∃ result ∈ results, result.id = name ∧ result.status = status := by
  obtain ⟨result, member, rfl⟩ := ledger.complete name status held final
  have same := ledger.status? result member
  exact ⟨result, member, rfl, Option.some.inj (same.symm.trans held)⟩

end Queue

namespace Progress

variable {σ : Type} {plan : RunPlan} {graph : Graph} {compiled : Compilation}
  {selected : NameSet} {executor : Executor σ} {before after : Progress σ} {result : NodeResult}
  {skipped : List NodeResult} {taken : List String}

theorem Recorded.ledger (recorded : Recorded plan graph selected before result skipped after)
    (ledger : before.queue.Ledger before.results)
    (running : before.queue.status? result.id = some .running)
    (final : result.status.isTerminal = true) : after.queue.Ledger after.results := by
  have settled := recorded.settled
  have apart : result.id ∉ skipped.map (·.id) := by
    intro member
    have waits := settled.pending _ member
    rw [running] at waits
    cases waits
  have member_id : ∀ other ∈ skipped, other.id ∈ skipped.map (·.id) :=
    fun other member => List.mem_map_of_mem member
  rw [recorded.results]
  refine ledger.append ?_ (fun other member => ?_) (fun other member status held => ?_)
    (fun other member => ?_) (fun name absent status ended => ?_)
  · rw [List.map_cons]
    exact List.nodup_cons.mpr ⟨apart, settled.nodup⟩
  · rcases List.mem_cons.mp member with rfl | later
    · exact final
    · rw [recorded.status_of_mem other later]
      rfl
  · rcases List.mem_cons.mp member with rfl | later
    · rw [running] at held
      cases held
      rfl
    · rw [settled.pending other.id (member_id other later)] at held
      cases held
      rfl
  · rw [settled.status?]
    rcases List.mem_cons.mp member with rfl | later
    · rw [if_pos rfl]
    · have different : other.id ≠ result.id := fun same => apart (same ▸ member_id other later)
      rw [if_neg different, if_pos (member_id other later), recorded.status_of_mem other later]
  · rw [List.map_cons, List.mem_cons, not_or] at absent
    rw [settled.status?, if_neg absent.1, if_neg absent.2]

/-- What is in flight was prepared for a thread, and it has no result but that of its execution. -/
structure Carries (plan : RunPlan) (compiled : Compilation) (flight : InFlight) : Prop where
  prepared : plan.prepare compiled flight.model.id = .execute flight.model
  executed : ∀ result, flight.result? = some result →
    ∃ outcome, result = plan.executed flight.model flight.thread outcome

section

variable {flight : InFlight} (carries : Carries plan compiled flight)
  (ended : flight.result? = some result)

include carries ended

theorem Carries.id : result.id = flight.model.id := by
  obtain ⟨outcome, rfl⟩ := carries.executed result ended
  rfl

theorem Carries.thread : result.thread = some ("Thread-" ++ toString flight.thread) := by
  obtain ⟨outcome, rfl⟩ := carries.executed result ended
  rfl

theorem Carries.final : result.status = .success ∨ result.status = .error := by
  obtain ⟨outcome, rfl⟩ := carries.executed result ended
  rw [RunPlan.executed_status]
  split
  · exact .inl rfl
  · exact .inr rfl

end

/-- Executing what is in flight changes neither its model nor its thread. -/
theorem map_called {β : Type} {flights : List InFlight} {position : Nat} {flight : InFlight}
    {state : σ} (found : flights[position]? = some flight) (f : InFlight → β)
    (same : f (called plan executor state flight) = f flight) :
    (flights.set position (called plan executor state flight)).map f = flights.map f := by
  obtain ⟨bound, rfl⟩ := List.getElem?_eq_some_iff.mp found
  have mapped : position < (flights.map f).length := by rwa [List.length_map]
  rw [List.map_set, same]
  exact (congrArg _ (List.getElem_map f).symm).trans (List.set_getElem_self mapped)

/-- The books of a run: which nodes are done, which run, and which threads are free.  The nodes in
`taken` run without being in flight. -/
structure Accounted (plan : RunPlan) (graph : Graph) (compiled : Compilation) (selected : NameSet)
    (taken : List String) (progress : Progress σ) : Prop where
  sound : progress.queue.Sound graph selected
  ledger : progress.queue.Ledger progress.results
  running : ∀ name, progress.queue.status? name = some .running ↔
    name ∈ taken ++ progress.inFlight.map (·.model.id)
  nodup : (taken ++ progress.inFlight.map (·.model.id)).Nodup
  flights : ∀ flight ∈ progress.inFlight, Carries plan compiled flight
  threads : (progress.freeThreads ++ progress.inFlight.map (·.thread)).Perm
    ((List.range (max plan.threads 1)).map (· + 1))

theorem accounted_start (plan : RunPlan) (graph : Graph) (compiled : Compilation)
    (selected : NameSet) (state : σ) :
    Accounted plan graph compiled selected [] (start plan graph selected state) where
  sound := Queue.sound_ofGraph graph selected
  ledger := by
    refine ⟨List.nodup_nil, by simp [start], by simp [start], fun name status held final => ?_⟩
    rw [Queue.ofGraph_status? held] at final
    cases final
  running name := by
    constructor
    · intro runs
      cases Queue.ofGraph_status? runs
    · exact fun member => absurd member List.not_mem_nil
  nodup := List.nodup_nil
  flights flight member := absurd member List.not_mem_nil
  threads := by
    rw [start, List.map_nil, List.append_nil]

/-- A node that is taken runs. -/
theorem Accounted.takes {thread : Nat} {others : List Nat} {name : String} {queue : Queue}
    (accounted : Accounted plan graph compiled selected [] before)
    (takes : before.Takes thread others name queue) :
    Accounted plan graph compiled selected [name] { before with queue } where
  sound := takes.sound accounted.sound
  ledger := by
    rw [← List.append_nil before.results]
    refine accounted.ledger.append List.nodup_nil (by simp) (by simp) (by simp)
      fun other _ status final => ?_
    rw [takes.status?]
    split
    next same =>
      rw [same, takes.pending accounted.sound]
      constructor <;> intro held <;> cases held <;> cases final
    next => rfl
  running other := by
    rw [takes.status?]
    split
    next same => simp [same]
    next different => simpa [different] using accounted.running other
  nodup := by
    refine List.nodup_cons.mpr ⟨fun member => ?_, accounted.nodup⟩
    have waits := takes.pending accounted.sound
    rw [(accounted.running name).mpr member] at waits
    cases waits
  flights := accounted.flights
  threads := accounted.threads

theorem Accounted.recorded (accounted : Accounted plan graph compiled selected [result.id] before)
    (final : result.status = .success ∨ result.status = .error)
    (recorded : Recorded plan graph selected before result skipped after) :
    Accounted plan graph compiled selected [] after where
  sound := recorded.settled.sound
  ledger := by
    refine recorded.ledger accounted.ledger ?_ ?_
    · exact (accounted.running result.id).mpr List.mem_cons_self
    · rcases final with success | error
      · rw [success]
        rfl
      · rw [error]
        rfl
  running name := by
    rw [recorded.settled.status?, recorded.inFlight, List.nil_append]
    have absent := (List.nodup_cons.mp accounted.nodup).1
    have running := accounted.running name
    rw [List.singleton_append, List.mem_cons] at running
    split
    next same =>
      subst same
      refine ⟨fun held => ?_, fun member => absurd member absent⟩
      rcases final with success | error
      · rw [success] at held
        cases held
      · rw [error] at held
        cases held
    next different =>
      split
      next member =>
        have waits := recorded.settled.pending name member
        refine ⟨fun held => (nomatch held), fun member => ?_⟩
        rw [running.mpr (.inr member)] at waits
        cases waits
      next => rw [running, or_iff_right different]
  nodup := by
    rw [recorded.inFlight]
    exact (List.nodup_cons.mp accounted.nodup).2
  flights := by
    rw [recorded.inFlight]
    exact accounted.flights
  threads := by
    rw [recorded.freeThreads, recorded.inFlight]
    exact accounted.threads

/-- A model that has been handed to a thread is in flight. -/
theorem Accounted.launched {thread : Nat} {others : List Nat} {queue : Queue}
    {model : CompiledModel}
    (accounted : Accounted plan graph compiled selected [model.id] { before with queue })
    (free : before.freeThreads = thread :: others)
    (prepared : plan.prepare compiled model.id = .execute model) :
    Accounted plan graph compiled selected [] (before.launched queue model thread others) where
  sound := accounted.sound
  ledger := accounted.ledger
  running name := by
    rw [Progress.launched]
    refine (accounted.running name).trans ?_
    simp [or_comm]
  nodup := by
    have nodup := accounted.nodup
    simp only [Progress.launched, List.map_append, List.nil_append]
    exact (List.perm_append_comm.nodup_iff).mp nodup
  flights flight member := by
    rcases List.mem_append.mp member with earlier | new
    · exact accounted.flights flight earlier
    · obtain rfl := List.mem_singleton.mp new
      exact ⟨prepared, fun result ended => nomatch ended⟩
  threads := by
    have threads := accounted.threads
    simp only [free] at threads
    simp only [Progress.launched, List.map_append, List.map_cons, List.map_nil]
    refine List.Perm.trans ?_ threads
    rw [← List.append_assoc]
    exact List.perm_append_singleton _ _

/-- Executing what is in flight changes no book. -/
theorem Accounted.performed {position : Nat} {flight : InFlight}
    (accounted : Accounted plan graph compiled selected [] before)
    (found : before.inFlight[position]? = some flight) :
    Accounted plan graph compiled selected [] (before.performed plan executor position flight) where
  sound := accounted.sound
  ledger := accounted.ledger
  running name := by
    rw [Progress.performed, map_called found _ rfl]
    exact accounted.running name
  nodup := by
    rw [Progress.performed, map_called found _ rfl]
    exact accounted.nodup
  flights other member := by
    rcases List.mem_or_eq_of_mem_set member with earlier | rfl
    · exact accounted.flights other earlier
    · refine ⟨(accounted.flights flight (List.mem_of_getElem? found)).prepared, ?_⟩
      rintro result ended
      cases ended
      exact ⟨_, rfl⟩
  threads := by
    rw [Progress.performed, map_called found _ rfl]
    exact accounted.threads

/-- An execution that has ended holds no thread. -/
theorem Accounted.landed {position thread : Nat} {model : CompiledModel}
    (accounted : Accounted plan graph compiled selected [] before)
    (found : before.inFlight[position]? = some ⟨thread, model, some result⟩) :
    Accounted plan graph compiled selected [result.id] (before.landed position thread result) := by
  rw [(accounted.flights _ (List.mem_of_getElem? found)).id rfl]
  have parts := perm_eraseIdx found
  have ids := parts.map (·.model.id)
  refine ⟨accounted.sound, accounted.ledger, fun name => ?_, ?_, fun other member => ?_, ?_⟩
  · exact (accounted.running name).trans ids.mem_iff.symm
  · exact ids.nodup_iff.mpr accounted.nodup
  · exact accounted.flights other (List.mem_of_mem_eraseIdx member)
  · have threads := accounted.threads
    refine List.Perm.trans ?_ threads
    refine List.perm_middle.symm.trans ?_
    exact (parts.map (·.thread)).append_left before.freeThreads

/-- Every step of a run keeps its books. -/
theorem Accounted.moves (keyed : compiled.Keyed)
    (accounted : Accounted plan graph compiled selected [] before)
    (moves : Moves plan graph compiled selected executor before after) :
    Accounted plan graph compiled selected [] after := by
  cases moves with
  | rested => exact accounted
  | passed takes prepared recorded =>
    obtain ⟨same, final⟩ := RunPlan.prepare_done prepared
    exact (same ▸ accounted.takes takes).recorded final recorded
  | @launched thread others name queue model takes prepared =>
    obtain rfl := keyed.id name model (RunPlan.prepare_execute prepared).1
    exact (accounted.takes takes).launched takes.free prepared
  | performed found => exact accounted.performed found
  | completed waits found recorded =>
    have final := (accounted.flights _ (List.mem_of_getElem? found)).final rfl
    exact (accounted.landed found).recorded final recorded

theorem Accounted.exists_moves (accounted : Accounted plan graph compiled selected [] before)
    (executor : Executor σ) (number : Nat) :
    ∃ after, before.step plan compiled executor number = .ok after ∧
      Moves plan graph compiled selected executor before after := by
  refine Progress.exists_moves plan compiled executor number accounted.sound
    (fun flight member result ended => ?_)
    fun flight member result ended => (accounted.flights flight member).final ended
  rw [(accounted.flights flight member).id ended]
  exact (accounted.running flight.model.id).mpr (List.mem_map_of_mem member)

end Progress

namespace RunPlan

variable {σ : Type} {plan : RunPlan} {graph : Graph} {compiled : Compilation}
  {selected : NameSet} {executor : Executor σ} {state : σ} {order : Nat → Nat}

open Progress

/-- A run reaches every moment, and its books are right there. -/
theorem exists_after (plan : RunPlan) (graph : Graph) (selected : NameSet)
    (executor : Executor σ) (state : σ) (order : Nat → Nat) (keyed : compiled.Keyed)
    (moment : Nat) :
    ∃ progress, plan.after graph compiled selected executor state order moment = .ok progress ∧
      Accounted plan graph compiled selected [] progress := by
  induction moment with
  | zero => exact ⟨_, rfl, accounted_start plan graph compiled selected state⟩
  | succ moment ih =>
    obtain ⟨before, reached, accounted⟩ := ih
    obtain ⟨after, run, moves⟩ := accounted.exists_moves executor (order moment)
    refine ⟨after, ?_, accounted.moves keyed moves⟩
    rw [RunPlan.after, reached]
    exact run

/-- A run moves from every moment to the next one. -/
theorem exists_before (keyed : compiled.Keyed) {moment : Nat} {after : Progress σ}
    (reached : plan.after graph compiled selected executor state order (moment + 1) =
      .ok after) :
    ∃ before, plan.after graph compiled selected executor state order moment = .ok before ∧
      Accounted plan graph compiled selected [] before ∧
      Moves plan graph compiled selected executor before after := by
  obtain ⟨before, earlier, accounted⟩ :=
    exists_after plan graph selected executor state order keyed moment
  obtain ⟨next, run, moves⟩ := accounted.exists_moves executor (order moment)
  rw [RunPlan.after, earlier] at reached
  obtain rfl := Except.ok.inj (run.symm.trans reached)
  exact ⟨before, earlier, accounted, moves⟩

/-- What holds at the start of a run and is kept by every step holds at every moment. -/
theorem after_induction (keyed : compiled.Keyed) {motive : Nat → Progress σ → Prop}
    (start : motive 0 (.start plan graph selected state))
    (step : ∀ moment before after, Accounted plan graph compiled selected [] before →
      Moves plan graph compiled selected executor before after → motive moment before →
      motive (moment + 1) after)
    {moment : Nat} {progress : Progress σ}
    (reached : plan.after graph compiled selected executor state order moment = .ok progress) :
    motive moment progress := by
  induction moment generalizing progress with
  | zero =>
    cases reached
    exact start
  | succ moment ih =>
    obtain ⟨before, earlier, accounted, moves⟩ := exists_before keyed reached
    exact step moment before progress accounted moves (ih earlier)

end RunPlan
end SqlPipeline
