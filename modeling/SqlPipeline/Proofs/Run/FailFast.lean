import SqlPipeline.Proofs.Run.Order
import SqlPipeline.Proofs.Run.Verdict

/-!
# Runs that fail fast

When a run that fails fast records its first error, everything that waits is skipped in the same
step.  From then on no node can be taken, and a completion releases and skips nothing.  What has
been handed to a thread by then is executed nevertheless, if it has not been, and completes.
-/

namespace SqlPipeline
namespace Progress

variable {σ : Type} {plan : RunPlan} {graph : Graph} {compiled : Compilation}
  {selected : NameSet} {executor : Executor σ} {before after last : Progress σ}
  {result : NodeResult} {skipped first second : List NodeResult}

/-- An error has been recorded. -/
def HasFailed (progress : Progress σ) : Prop := ∃ result ∈ progress.results, result.status = .error

/-- Nothing more is started, and no node waits. -/
structure Halted (progress : Progress σ) : Prop where
  stopping : progress.stopping = true
  settled : ∀ name, progress.queue.status? name ≠ some .pending

theorem Halted.not_takes {thread : Nat} {others : List Nat} {name : String} {queue : Queue}
    (halted : before.Halted) : ¬ before.Takes thread others name queue := by
  intro takes
  have going := takes.going
  rw [halted.stopping] at going
  cases going

/-- Recording a result skips nothing any more. -/
theorem Halted.recorded (halted : before.Halted)
    (final : result.status = .success ∨ result.status = .error)
    (recorded : Recorded plan graph selected before result skipped after) :
    skipped = [] ∧ after.Halted := by
  have none : skipped = [] := by
    refine List.eq_nil_iff_forall_not_mem.mpr fun other member => ?_
    have waits := recorded.settled.pending other.id (List.mem_map_of_mem member)
    exact halted.settled other.id waits
  refine ⟨none, ?_, fun name => ?_⟩
  · rw [recorded.stopping, halted.stopping, Bool.true_or]
  · rw [recorded.settled.status?, none, List.map_nil, if_neg List.not_mem_nil]
    split
    · rcases final with final | final <;> rw [final] <;> exact fun waits => nomatch waits
    · exact halted.settled name

/-- An error is an old one or the result that is being recorded. -/
theorem Recorded.failed_or (recorded : Recorded plan graph selected before result skipped after)
    (failed : after.HasFailed) : before.HasFailed ∨ result.status = .error := by
  obtain ⟨other, member, error⟩ := failed
  rw [recorded.results, List.mem_append, List.mem_cons] at member
  rcases member with earlier | rfl | later
  · exact .inl ⟨other, earlier, error⟩
  · exact .inr error
  · rw [recorded.status_of_mem other later] at error
    cases error

/-- The first error halts a run that fails fast. -/
theorem Recorded.halted_of_error
    (recorded : Recorded plan graph selected before result skipped after)
    (fast : plan.failFast = true) (error : result.status = .error) : after.Halted where
  stopping := by
    rw [recorded.stopping, error, fast]
    exact Bool.or_true _
  settled := recorded.halted error fast

/-- A run that fails fast has halted whenever it has failed; every step keeps this. -/
theorem halted_of_moves (fast : plan.failFast = true)
    (accounted : Accounted plan graph compiled selected [] before)
    (moves : Moves plan graph compiled selected executor before after)
    (earlier : before.HasFailed → before.Halted) (failed : after.HasFailed) : after.Halted := by
  cases moves with
  | rested => exact earlier failed
  | passed takes prepared recorded =>
    rcases recorded.failed_or failed with old | error
    · exact absurd takes (earlier old).not_takes
    · exact recorded.halted_of_error fast error
  | launched takes prepared => exact absurd takes (earlier failed).not_takes
  | performed found => exact ⟨(earlier failed).stopping, (earlier failed).settled⟩
  | @completed position thread model result skipped after waits found recorded =>
    rcases recorded.failed_or failed with old | error
    · have landed : (before.landed position thread result).Halted :=
        ⟨(earlier old).stopping, (earlier old).settled⟩
      have carries := accounted.flights _ (List.mem_of_getElem? found)
      exact (landed.recorded (carries.final rfl) recorded).2
    · exact recorded.halted_of_error fast error

/-! ## What is in flight completes -/

/-- The models that have been handed to a thread and are not executed yet, the first one handed over
first. -/
def handedOver (progress : Progress σ) : List CompiledModel :=
  (progress.inFlight.filter (·.result?.isNone)).map (·.model)

/-- An execution in flight is what it was, or the executor has been called for it since. -/
def Proceeds (plan : RunPlan) (executor : Executor σ) (old new : InFlight) : Prop :=
  new = old ∨ old.result? = none ∧ ∃ state, new = called plan executor state old

theorem Proceeds.trans {old middle new : InFlight} (early : Proceeds plan executor old middle)
    (late : Proceeds plan executor middle new) : Proceeds plan executor old new := by
  rcases early with rfl | ⟨fresh, state, rfl⟩
  · exact late
  · rcases late with rfl | ⟨none, -⟩
    · exact .inr ⟨fresh, state, rfl⟩
    · cases none

/-- An execution in flight that is executed already keeps its result, and any other one has the
outcome that the executor gives it. -/
theorem Proceeds.outcome {old new : InFlight} (proceeds : Proceeds plan executor old new)
    (flown : ∀ result, old.result? = some result → ∃ state,
      result = plan.executed old.model old.thread (executor old.model state).1)
    (ended : new.result? = some result) : ∃ state,
      result = plan.executed old.model old.thread (executor old.model state).1 := by
  rcases proceeds with rfl | ⟨-, state, rfl⟩
  · exact flown result ended
  · exact ⟨state, (Option.some.inj ended).symm⟩

/-- Every result in flight is the outcome that the executor gave. -/
def Flown (plan : RunPlan) (executor : Executor σ) (progress : Progress σ) : Prop :=
  ∀ flight ∈ progress.inFlight, ∀ result, flight.result? = some result → ∃ state,
    result = plan.executed flight.model flight.thread (executor flight.model state).1

theorem Flown.moves (flown : before.Flown plan executor)
    (moves : Moves plan graph compiled selected executor before after) :
    after.Flown plan executor := by
  intro flight member result ended
  cases moves with
  | rested => exact flown flight member result ended
  | passed takes prepared recorded =>
    rw [recorded.inFlight] at member
    exact flown flight member result ended
  | launched takes prepared =>
    rcases List.mem_append.mp member with earlier | new
    · exact flown flight earlier result ended
    · obtain rfl := List.mem_singleton.mp new
      cases ended
  | performed found =>
    rcases List.mem_or_eq_of_mem_set member with earlier | rfl
    · exact flown flight earlier result ended
    · exact ⟨before.state, (Option.some.inj ended).symm⟩
  | completed waits found recorded =>
    rw [recorded.inFlight] at member
    exact flown flight (List.mem_of_mem_eraseIdx member) result ended

/-- Between two moments nothing is taken: the results in `done` are those of executions that were in
flight, each of them once, and the executor is called for the models in `fresh`, which had been
handed over, each of them once. -/
structure Drains (plan : RunPlan) (executor : Executor σ) (before : Progress σ)
    (done : List NodeResult) (fresh : List CompiledModel) (after : Progress σ) : Prop where
  results : after.results = before.results ++ done
  flights : (done.map (·.id) ++ after.inFlight.map (·.model.id)).Perm
    (before.inFlight.map (·.model.id))
  ended : ∀ result ∈ done, ∃ old ∈ before.inFlight, ∃ new, Proceeds plan executor old new ∧
    new.result? = some result
  kept : ∀ new ∈ after.inFlight, ∃ old ∈ before.inFlight, Proceeds plan executor old new
  executed : (fresh ++ after.handedOver).Perm before.handedOver
  started : RunEvent.startedIds after.events =
    RunEvent.startedIds before.events ++ fresh.map (·.id)
  state : after.state = fresh.foldl (fun state model => (executor model state).2) before.state

theorem Drains.refl (plan : RunPlan) (executor : Executor σ) (progress : Progress σ) :
    progress.Drains plan executor [] [] progress where
  results := (List.append_nil _).symm
  flights := .refl _
  ended _ member := absurd member List.not_mem_nil
  kept flight member := ⟨flight, member, .inl rfl⟩
  executed := .refl _
  started := (List.append_nil _).symm
  state := rfl

theorem Drains.trans {called later : List CompiledModel}
    (early : before.Drains plan executor first called after)
    (late : after.Drains plan executor second later last) :
    before.Drains plan executor (first ++ second) (called ++ later) last where
  results := by rw [late.results, early.results, List.append_assoc]
  flights := by
    rw [List.map_append, List.append_assoc]
    exact (late.flights.append_left _).trans early.flights
  ended result member := by
    rcases List.mem_append.mp member with earlier | new
    · exact early.ended result earlier
    · obtain ⟨middle, flew, next, proceeds, ended⟩ := late.ended result new
      obtain ⟨old, flies, proceeded⟩ := early.kept middle flew
      exact ⟨old, flies, next, proceeded.trans proceeds, ended⟩
  kept new member := by
    obtain ⟨middle, flew, proceeds⟩ := late.kept new member
    obtain ⟨old, flies, proceeded⟩ := early.kept middle flew
    exact ⟨old, flies, proceeded.trans proceeds⟩
  executed := by
    rw [List.append_assoc]
    exact (late.executed.append_left called).trans early.executed
  started := by rw [late.started, early.started, List.map_append, List.append_assoc]
  state := by rw [late.state, early.state, List.foldl_append]

/-- Executing what had been handed over calls the executor for it. -/
theorem drains_performed {position thread : Nat} {model : CompiledModel}
    (found : before.inFlight[position]? = some ⟨thread, model, none⟩) :
    before.Drains plan executor [] [model]
      (before.performed plan executor position ⟨thread, model, none⟩) where
  results := (List.append_nil _).symm
  flights := by
    rw [performed, map_called found _ rfl]
    rfl
  ended _ member := absurd member List.not_mem_nil
  kept new member := by
    rcases List.mem_or_eq_of_mem_set member with earlier | rfl
    · exact ⟨new, earlier, .inl rfl⟩
    · exact ⟨_, List.mem_of_getElem? found, .inr ⟨rfl, before.state, rfl⟩⟩
  executed := by
    have bound := (List.getElem?_eq_some_iff.mp found).1
    have old := (perm_eraseIdx found).filter (·.result?.isNone)
    have new := (List.set_perm_cons_eraseIdx bound
      (called plan executor before.state ⟨thread, model, none⟩)).filter (·.result?.isNone)
    rw [List.filter_cons_of_pos rfl] at old
    rw [List.filter_cons_of_neg (by simp [called])] at new
    exact ((new.map InFlight.model).cons model).trans (old.map InFlight.model)
  started := by simp [performed, RunEvent.startedIds]
  state := rfl

/-- Completing an execution that has been executed records its result. -/
theorem drains_completed {position thread : Nat} {model : CompiledModel}
    (carries : Carries plan compiled ⟨thread, model, some result⟩)
    (found : before.inFlight[position]? = some ⟨thread, model, some result⟩)
    (recorded : Recorded plan graph selected (before.landed position thread result) result []
      after) : before.Drains plan executor [result] [] after where
  results := recorded.results
  flights := by
    rw [recorded.inFlight, List.map_singleton, carries.id rfl]
    exact (perm_eraseIdx found).map (·.model.id)
  ended other member := by
    obtain rfl := List.mem_singleton.mp member
    exact ⟨_, List.mem_of_getElem? found, _, .inl rfl, rfl⟩
  kept new member := by
    rw [recorded.inFlight] at member
    exact ⟨new, List.mem_of_mem_eraseIdx member, .inl rfl⟩
  executed := by
    have rest := (perm_eraseIdx found).filter (·.result?.isNone)
    rw [List.filter_cons_of_neg (by simp)] at rest
    rw [handedOver, recorded.inFlight]
    exact rest.map (·.model)
  started := by
    rw [recorded.events]
    simp [landed]
  state := recorded.state

/-- Once a run has halted, every selected node is in flight, has ended by itself or is skipped. -/
theorem Halted.settles {name : String} (halted : before.Halted)
    (accounted : Accounted plan graph compiled selected [] before) (chosen : name ∈ selected)
    (known : name ∈ graph.nodes) :
    (∃ flight ∈ before.inFlight, flight.model.id = name) ∨
    (∃ result ∈ before.results, result.id = name ∧
      (result.status = .success ∨ result.status = .error)) ∨
    ∃ result ∈ before.results, result.id = name ∧ result.status = .skipped := by
  have held : ∃ status, before.queue.status? name = some status := by
    rw [← accounted.sound.mem_iff_status?, NameSet.mem_toList, NameSet.mem_filter]
    exact ⟨chosen, Graph.contains_iff.mpr known⟩
  obtain ⟨status, held⟩ := held
  cases status with
  | pending => exact absurd held (halted.settled name)
  | running =>
    obtain ⟨flight, flies, same⟩ := List.mem_map.mp ((accounted.running name).mp held)
    exact .inl ⟨flight, flies, same⟩
  | success =>
    obtain ⟨result, member, same, status⟩ := accounted.ledger.exists_result held rfl
    exact .inr (.inl ⟨result, member, same, .inl status⟩)
  | error =>
    obtain ⟨result, member, same, status⟩ := accounted.ledger.exists_result held rfl
    exact .inr (.inl ⟨result, member, same, .inr status⟩)
  | skipped =>
    obtain ⟨result, member, same, status⟩ := accounted.ledger.exists_result held rfl
    exact .inr (.inr ⟨result, member, same, status⟩)

/-- Once a run has halted, only what is in flight can be executed and completed. -/
theorem Halted.moves (halted : before.Halted)
    (accounted : Accounted plan graph compiled selected [] before)
    (moves : Moves plan graph compiled selected executor before after) :
    after.Halted ∧ ∃ done fresh, before.Drains plan executor done fresh after := by
  cases moves with
  | rested => exact ⟨halted, [], [], .refl plan executor before⟩
  | passed takes => exact absurd takes halted.not_takes
  | launched takes => exact absurd takes halted.not_takes
  | @performed position thread model found =>
    exact ⟨⟨halted.stopping, halted.settled⟩, [], [model], drains_performed found⟩
  | @completed position thread model result skipped after waits found recorded =>
    have landed : (before.landed position thread result).Halted :=
      ⟨halted.stopping, halted.settled⟩
    have carries := accounted.flights _ (List.mem_of_getElem? found)
    obtain ⟨rfl, halts⟩ := landed.recorded (carries.final rfl) recorded
    exact ⟨halts, [result], [], drains_completed carries found recorded⟩

end Progress

namespace RunPlan

variable {σ : Type} {plan : RunPlan} {graph : Graph} {compiled : Compilation}
  {selected : NameSet} {executor : Executor σ} {state : σ} {order : Nat → Nat} {moment : Nat}
  {progress : Progress σ}

open Progress

theorem halted_of_failed (keyed : compiled.Keyed) (fast : plan.failFast = true)
    (reached : plan.after graph compiled selected executor state order moment = .ok progress)
    (failed : progress.HasFailed) : progress.Halted := by
  refine after_induction keyed
    (motive := fun _ progress => progress.HasFailed → progress.Halted) ?_ ?_ reached failed
  · rintro ⟨result, member, -⟩
    cases member
  · intro _ before after accounted moves ih
    exact halted_of_moves fast accounted moves ih

theorem flown_after (keyed : compiled.Keyed)
    (reached : plan.after graph compiled selected executor state order moment = .ok progress) :
    progress.Flown plan executor := by
  refine after_induction keyed
    (motive := fun _ progress => progress.Flown plan executor) ?_ ?_ reached
  · exact fun flight member => absurd member List.not_mem_nil
  · intro _ before after accounted moves ih
    exact ih.moves moves

/-- A run that has halted stays so while what is in flight is executed and completes. -/
theorem exists_drains (keyed : compiled.Keyed)
    (reached : plan.after graph compiled selected executor state order moment = .ok progress)
    (halted : progress.Halted) (extra : Nat) :
    ∃ later done fresh,
      plan.after graph compiled selected executor state order (moment + extra) = .ok later ∧
      later.Halted ∧ progress.Drains plan executor done fresh later := by
  induction extra with
  | zero => exact ⟨progress, [], [], reached, halted, .refl plan executor progress⟩
  | succ extra ih =>
    obtain ⟨middle, first, called, there, halts, early⟩ := ih
    obtain ⟨last, run, -⟩ :=
      exists_after plan graph selected executor state order keyed (moment + extra + 1)
    obtain ⟨before, here, accounted, moves⟩ := exists_before keyed run
    obtain rfl := Except.ok.inj (there.symm.trans here)
    obtain ⟨stays, second, more, late⟩ := halts.moves accounted moves
    exact ⟨last, first ++ second, called ++ more, run, stays, early.trans late⟩

/-- As soon as a run that fails fast has recorded an error, whatever its graph, its selection, its
threads, its executor and the order in which what is in flight is executed and completes, no node is
taken from the queue any more, so none is prepared or handed to a thread, and the executor is called
only for what had been handed over by then.  At its end the results are those recorded by then and
those of the executions in flight, each of them once and a success or an error as the executor made
it, and every selected node that had neither ended by itself nor been in flight is skipped. -/
theorem fails_fast (made : compiled.Made) (fast : plan.failFast = true)
    (reached : plan.after graph compiled selected executor state order moment = .ok progress)
    (failed : ∃ result ∈ progress.results, result.status = .error) :
    (∀ extra, ∃ later done fresh,
      plan.after graph compiled selected executor state order (moment + extra) = .ok later ∧
      .take ∉ later.possibleMoves ∧ progress.Drains plan executor done fresh later) ∧
    ∃ final done fresh,
      plan.run graph compiled selected executor state order = .ok final ∧
      progress.Drains plan executor done fresh final ∧ final.inFlight = [] ∧
      fresh.Perm progress.handedOver ∧
      (done.map (·.id)).Perm (progress.inFlight.map (·.model.id)) ∧
      (∀ result ∈ done, (result.status = .success ∨ result.status = .error) ∧
        ∃ model thread state, compiled.get? result.id = some (.ok model) ∧
          result = plan.executed model thread (executor model state).1) ∧
      (final.results.map (·.id)).Nodup ∧
      ∀ name ∈ selected, name ∈ graph.nodes →
        (∃ flight ∈ progress.inFlight, flight.model.id = name) ∨
        (∃ result ∈ progress.results, result.id = name ∧
          (result.status = .success ∨ result.status = .error)) ∨
        ∃ result ∈ final.results, result.id = name ∧ result.status = .skipped := by
  have keyed := made.keyed
  have halted := halted_of_failed keyed fast reached failed
  refine ⟨fun extra => ?_, ?_⟩
  · obtain ⟨later, done, fresh, there, halts, drains⟩ := exists_drains keyed reached halted extra
    refine ⟨later, done, fresh, there, fun taking => ?_, drains⟩
    rw [take_mem_possibleMoves, canTake_of_waits (.inl halts.stopping)] at taking
    cases taking
  · obtain ⟨final, settled, ended, rests, run⟩ :=
      exists_run plan graph selected executor state order keyed
    obtain ⟨later, done, fresh, there, halts, drains⟩ := exists_drains keyed reached halted
      (3 * (selected.filter graph.contains).size)
    obtain rfl := Except.ok.inj ((settled _ (Nat.le_add_left _ moment)).symm.trans there)
    have finished := ended.isFinished_of_settled halts.settled rests.2
    rw [close_of_finished finished] at run
    have flights : (done.map (·.id)).Perm (progress.inFlight.map (·.model.id)) := by
      have flights := drains.flights
      rwa [rests.2, List.map_nil, List.append_nil] at flights
    have executed : fresh.Perm progress.handedOver := by
      have executed := drains.executed
      rwa [handedOver, rests.2, List.filter_nil, List.map_nil, List.append_nil] at executed
    obtain ⟨_, again, accounted⟩ :=
      exists_after plan graph selected executor state order keyed moment
    obtain rfl := Except.ok.inj (reached.symm.trans again)
    refine ⟨_, done, fresh, run, drains, rests.2, executed, flights, fun result member => ?_,
      ended.ledger.nodup, fun name chosen known => ?_⟩
    · obtain ⟨old, flies, new, proceeds, present⟩ := drains.ended result member
      obtain ⟨state, rfl⟩ := proceeds.outcome (flown_after keyed reached old flies) present
      have prepared := (accounted.flights old flies).prepared
      refine ⟨?_, old.model, old.thread, state, (prepare_execute prepared).1, rfl⟩
      rw [executed_status]
      exact ite_eq_or_eq _ _ _
    · rcases halted.settles accounted chosen known with flies | ended | ⟨result, member, skipped⟩
      · exact .inl flies
      · exact .inr (.inl ended)
      · refine .inr (.inr ⟨result, ?_, skipped⟩)
        rw [drains.results]
        exact List.mem_append_left _ member

/-- Two threads, and a run that stops after an error. -/
def onTwoThreadsFast : RunPlan := { onTwoThreads with failFast := true }

/-- The files of a model, and of another one that a third one reads. -/
def branchFiles : List (FilePath × String) :=
  [("models/a.sql", "select 1"), ("models/b.sql", "select 2"),
    ("models/c.sql", "select * from \x7b\x7b ref('b') \x7d\x7d")]

/-- An executor that fails for the first one of them. -/
def failingFirst : Executor Unit :=
  .rehearsal (.ofList [("model.modelflow_project.a", "no such table")])

/-- The first execution completes before the second one is executed. -/
def completingEarly (step : Nat) : Nat := if step = 3 then 1 else 0

/-- The first model fails while the second one has only been handed to a thread: that one is
executed and completes, and the third one, which waits for it, is skipped. -/
theorem fails_fast_branch :
    ∃ project, Project.ofSources (.default "") branchFiles = .ok project ∧
      ∃ progress, onTwoThreadsFast.after project.graph project.compile project.graph.nodes
          failingFirst () completingEarly 4 = .ok progress ∧
        (∃ result ∈ progress.results, result.status = .error) ∧
        progress.handedOver.map (·.id) = ["model.modelflow_project.b"] ∧
        ∃ final done fresh, onTwoThreadsFast.run project.graph project.compile
            project.graph.nodes failingFirst () completingEarly = .ok final ∧
          progress.Drains onTwoThreadsFast failingFirst done fresh final ∧
          final.inFlight = [] ∧ fresh.Perm progress.handedOver := by
  obtain ⟨project, loaded, passes⟩ := Project.exists_loaded (.default "") branchFiles
    (fun project : Project =>
      (onTwoThreadsFast.after project.graph project.compile project.graph.nodes failingFirst ()
        completingEarly 4).toOption.any fun progress : Progress Unit =>
          progress.results.any (·.status = .error) &&
            decide (progress.handedOver.map (·.id) = ["model.modelflow_project.b"]))
    (by decide +kernel)
  have made : project.compile.Made := .ofProject loaded project.settings
  obtain ⟨progress, reached, -⟩ := exists_after onTwoThreadsFast project.graph project.graph.nodes
    failingFirst () completingEarly made.keyed 4
  rw [reached] at passes
  simp only [Except.toOption, Option.any_some, Bool.and_eq_true, List.any_eq_true,
    decide_eq_true_iff] at passes
  obtain ⟨failed, waits⟩ := passes
  obtain ⟨-, final, done, fresh, run, drains, landed, called, -⟩ :=
    fails_fast made rfl reached failed
  exact ⟨project, loaded, progress, reached, failed, waits, final, done, fresh, run, drains, landed,
    called⟩

/-- The files of a model, and of another one that a run does not build. -/
def unsupportedFiles : List (FilePath × String) :=
  [("models/a.sql", "select 1"),
    ("models/b.sql", "\x7b\x7b config(materialized='test') \x7d\x7d")]

/-- An executor is called after the first error of a run that fails fast: the second model cannot be
built, and the first one, which has only been handed to a thread by then, is executed and
succeeds. -/
theorem executes_after_error :
    ∃ project, Project.ofSources (.default "") unsupportedFiles = .ok project ∧
      ∃ progress final, onTwoThreadsFast.after project.graph project.compile project.graph.nodes
          (.rehearsal .empty) () (fun _ => 0) 2 = .ok progress ∧
        (∃ result ∈ progress.results, result.status = .error) ∧
        RunEvent.startedIds progress.events = [] ∧
        onTwoThreadsFast.run project.graph project.compile project.graph.nodes
          (.rehearsal .empty) () (fun _ => 0) = .ok final ∧
        RunEvent.startedIds final.events = ["model.modelflow_project.a"] ∧
        ∃ result ∈ final.results, result.id = "model.modelflow_project.a" ∧
          result.status = .success := by
  obtain ⟨project, loaded, passes⟩ := Project.exists_loaded (.default "") unsupportedFiles
    (fun project : Project =>
      ((onTwoThreadsFast.after project.graph project.compile project.graph.nodes
        (.rehearsal .empty) () (fun _ => 0) 2).toOption.any fun progress : Progress Unit =>
          progress.results.any (·.status = .error) &&
            decide (RunEvent.startedIds progress.events = [])) &&
      (onTwoThreadsFast.run project.graph project.compile project.graph.nodes
        (.rehearsal .empty) () fun _ => 0).toOption.any fun final : Progress Unit =>
          decide (RunEvent.startedIds final.events = ["model.modelflow_project.a"]) &&
            final.results.any fun result =>
              result.id = "model.modelflow_project.a" ∧ result.status = .success)
    (by decide +kernel)
  have made : project.compile.Made := .ofProject loaded project.settings
  obtain ⟨progress, reached, -⟩ := exists_after onTwoThreadsFast project.graph project.graph.nodes
    (.rehearsal .empty) () (fun _ => 0) made.keyed 2
  obtain ⟨last, -, -, -, run⟩ := exists_run onTwoThreadsFast project.graph project.graph.nodes
    (.rehearsal .empty) () (fun _ => 0) made.keyed
  rw [reached, run] at passes
  simp only [Except.toOption, Option.any_some, Bool.and_eq_true, List.any_eq_true,
    decide_eq_true_iff] at passes
  obtain ⟨⟨failed, none⟩, called, completes⟩ := passes
  exact ⟨project, loaded, progress, last.close, reached, failed, none, run, called, completes⟩

end RunPlan
end SqlPipeline
