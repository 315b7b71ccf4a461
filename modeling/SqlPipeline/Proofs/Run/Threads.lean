import SqlPipeline.Proofs.Run.FailFast

/-!
# The threads of a run

A thread is free or carries one execution, and it changes hands in two kinds of steps only: a model
that is handed to it takes it, and an execution that completes gives it back.  So no more executions
are under way at once than there are threads, at any prefix of what happens in a run.
-/

namespace SqlPipeline

/-! ## Executions under way -/

namespace RunEvent

/-- How many executions are under way after one more event. -/
def advance (active : Nat) : RunEvent → Nat
  | started _ _ => active + 1
  | completed _ => active - 1

/-- How many executions are under way after some events. -/
def underWay (events : List RunEvent) : Nat := events.foldl advance 0

/-- What bounds the executions under way after every prefix of the events bounds those under way at
once when each of them takes the same time. -/
theorem mostAtOnceFrom_le {limit : Nat} (ended waiting : Nat) (events : List RunEvent)
    (bounded : ∀ early, early <+: events → early.foldl advance (ended + waiting) ≤ limit) :
    mostAtOnceFrom ended waiting events ≤ limit := by
  induction events generalizing ended waiting with
  | nil => exact Nat.zero_le limit
  | cons event events ih =>
    have now : ended + waiting ≤ limit := bounded [] List.nil_prefix
    have later : ∀ early, early <+: events →
        early.foldl advance (advance (ended + waiting) event) ≤ limit :=
      fun early inside => bounded (event :: early) (List.cons_prefix_cons.mpr ⟨rfl, inside⟩)
    cases event with
    | started id thread => exact ih ended (waiting + 1) later
    | completed id =>
      cases ended with
      | zero =>
        have rest := ih (waiting - 1) 0 (by simpa [advance] using later)
        exact max_le (by omega) rest
      | succ ended =>
        have fewer : ended + 1 + waiting - 1 = ended + waiting := by omega
        exact ih ended waiting (by simpa only [advance, fewer] using later)

theorem mostAtOnce_le {limit : Nat} {events : List RunEvent}
    (bounded : ∀ early, early <+: events → underWay early ≤ limit) : mostAtOnce events ≤ limit :=
  mostAtOnceFrom_le 0 0 events bounded

end RunEvent

namespace Progress

variable {σ : Type} {plan : RunPlan} {graph : Graph} {compiled : Compilation}
  {selected : NameSet} {executor : Executor σ} {before after : Progress σ} {result : NodeResult}
  {skipped : List NodeResult}

/-! ## How threads change hands -/

/-- A node that is skipped needs no thread. -/
theorem Recorded.thread_of_mem (recorded : Recorded plan graph selected before result skipped after)
    {other : NodeResult} (member : other ∈ skipped) : other.thread = none := by
  rcases recorded.reason other member with because | fast
  · rw [because]
    rfl
  · rw [fast]
    rfl

/-- What a step does with the threads. -/
inductive HandsOver (before after : Progress σ) : Prop
  /-- No thread changes hands, and what ends has no thread. -/
  | kept {ended : List NodeResult} (results : after.results = before.results ++ ended)
      (threadless : ∀ result ∈ ended, result.thread = none)
      (inFlight : after.inFlight = before.inFlight)
      (freeThreads : after.freeThreads = before.freeThreads)
      (events : after.events = before.events)
  /-- A model is handed to the next free thread. -/
  | taken {thread : Nat} {model : CompiledModel} (results : after.results = before.results)
      (inFlight : after.inFlight = before.inFlight ++ [⟨thread, model, none⟩])
      (freeThreads : before.freeThreads = thread :: after.freeThreads)
      (events : after.events = before.events)
  /-- A thread executes what it was handed. -/
  | executed {position thread : Nat} {model : CompiledModel} {result : NodeResult}
      (found : before.inFlight[position]? = some ⟨thread, model, none⟩)
      (results : after.results = before.results)
      (inFlight : after.inFlight = before.inFlight.set position ⟨thread, model, some result⟩)
      (freeThreads : after.freeThreads = before.freeThreads)
      (events : after.events = before.events ++ [.started model.id thread])
  /-- An execution completes and gives its thread back; what is skipped with it has no thread. -/
  | returned {position thread : Nat} {model : CompiledModel} {result : NodeResult}
      {skipped : List NodeResult}
      (found : before.inFlight[position]? = some ⟨thread, model, some result⟩)
      (same : result.id = model.id)
      (results : after.results = before.results ++ result :: skipped)
      (threadless : ∀ result ∈ skipped, result.thread = none)
      (inFlight : after.inFlight = before.inFlight.eraseIdx position)
      (freeThreads : after.freeThreads = thread :: before.freeThreads)
      (events : after.events = before.events ++ [.completed model.id])

theorem Moves.handsOver (accounted : Accounted plan graph compiled selected [] before)
    (moves : Moves plan graph compiled selected executor before after) :
    before.HandsOver after := by
  cases moves with
  | rested =>
    exact .kept (List.append_nil _).symm (fun _ member => absurd member List.not_mem_nil)
      rfl rfl rfl
  | passed takes prepared recorded =>
    refine .kept recorded.results (fun result member => ?_) recorded.inFlight recorded.freeThreads
      recorded.events
    rcases List.mem_cons.mp member with rfl | later
    · exact RunPlan.thread_of_prepare_done prepared
    · exact recorded.thread_of_mem later
  | launched takes prepared => exact .taken rfl rfl takes.free rfl
  | performed found => exact .executed found rfl rfl rfl rfl
  | completed waits found recorded =>
    have same := (accounted.flights _ (List.mem_of_getElem? found)).id rfl
    exact .returned found same recorded.results (fun _ member => recorded.thread_of_mem member)
      recorded.inFlight recorded.freeThreads (same ▸ recorded.events)

/-! ## What the threads carry -/

/-- The threads of a run from 1 to their number, each of them either free or with one execution. -/
structure Threaded (plan : RunPlan) (progress : Progress σ) : Prop where
  threads : (progress.freeThreads ++ progress.inFlight.map (·.thread)).Perm
    ((List.range (max plan.threads 1)).map (· + 1))
  length_le : progress.inFlight.length ≤ max plan.threads 1
  /-- An execution in flight tells the thread it is on. -/
  thread : ∀ flight ∈ progress.inFlight, ∀ result, flight.result? = some result →
    result.thread = some ("Thread-" ++ toString flight.thread)
  /-- No two executions in flight tell the same thread. -/
  nodup : (progress.inFlight.map fun flight => some ("Thread-" ++ toString flight.thread)).Nodup

theorem thread_label_injective :
    Function.Injective fun thread : Nat => some ("Thread-" ++ toString thread) := by
  intro first second same
  have digits : toString first = toString second :=
    (String.append_right_inj _).mp (Option.some.inj same)
  rw [Nat.toString_eq_ofList_toDigits, Nat.toString_eq_ofList_toDigits] at digits
  have read := congrArg (Nat.ofDigitChars 10 · 0) (String.ofList_injective digits)
  simpa only [Nat.ofDigitChars_ten_toDigits] using read

/-- There are as many threads as are free and carry an execution together. -/
theorem Accounted.length_threads (accounted : Accounted plan graph compiled selected [] before) :
    before.freeThreads.length + before.inFlight.length = max plan.threads 1 := by
  have length := accounted.threads.length_eq
  simpa only [List.length_append, List.length_map, List.length_range] using length

theorem Accounted.threaded (accounted : Accounted plan graph compiled selected [] before) :
    before.Threaded plan := by
  have threads := accounted.threads
  have nodup : (before.inFlight.map (·.thread)).Nodup := by
    have all : ((List.range (max plan.threads 1)).map (· + 1)).Nodup :=
      List.nodup_range.map (add_left_injective 1)
    exact (List.nodup_append.mp (threads.nodup_iff.mpr all)).2.1
  refine ⟨threads, accounted.length_threads ▸ Nat.le_add_left _ _,
    fun flight member result ended => (accounted.flights flight member).thread ended, ?_⟩
  have labels := nodup.map thread_label_injective
  rwa [List.map_map] at labels

/-- What is in flight is on one of the threads of the run. -/
theorem Threaded.exists_thread {flight : InFlight} (threaded : before.Threaded plan)
    (flies : flight ∈ before.inFlight) (ended : flight.result? = some result) :
    ∃ thread, 1 ≤ thread ∧ thread ≤ max plan.threads 1 ∧
      result.thread = some ("Thread-" ++ toString thread) := by
  have listed : flight.thread ∈ (List.range (max plan.threads 1)).map (· + 1) :=
    threaded.threads.mem_iff.mp (List.mem_append_right _ (List.mem_map_of_mem flies))
  obtain ⟨number, inside, same⟩ := List.mem_map.mp listed
  have below := List.mem_range.mp inside
  exact ⟨flight.thread, by omega, by omega, threaded.thread flight flies result ended⟩

/-! ## What has been executed -/

/-- The ids of the results that tell a thread. -/
def threadedIds (results : List NodeResult) : List String :=
  (results.filter (·.thread.isSome)).map (·.id)

theorem threadedIds_append (first second : List NodeResult) :
    threadedIds (first ++ second) = threadedIds first ++ threadedIds second := by
  rw [threadedIds, List.filter_append, List.map_append]
  rfl

theorem threadedIds_of_threadless {results : List NodeResult}
    (threadless : ∀ result ∈ results, result.thread = none) : threadedIds results = [] := by
  rw [threadedIds, List.map_eq_nil_iff, List.filter_eq_nil_iff]
  intro result member
  rw [threadless result member]
  exact Bool.false_ne_true

theorem threadedIds_cons_of_thread {results : List NodeResult} {thread : String}
    (told : result.thread = some thread) :
    threadedIds (result :: results) = result.id :: threadedIds results := by
  rw [threadedIds, List.filter_cons_of_pos (by rw [told]; rfl)]
  rfl

/-- The ids of the models in flight that have been executed, the first one handed over first. -/
def executingIds (flights : List InFlight) : List String :=
  (flights.filter (·.result?.isSome)).map (·.model.id)

theorem length_executingIds_le (flights : List InFlight) :
    (executingIds flights).length ≤ flights.length := by
  rw [executingIds, List.length_map]
  exact List.length_filter_le _ _

theorem executingIds_append_of_fresh (flights : List InFlight) (thread : Nat)
    (model : CompiledModel) :
    executingIds (flights ++ [⟨thread, model, none⟩]) = executingIds flights := by
  rw [executingIds, List.filter_append, List.filter_cons_of_neg (by simp), List.filter_nil,
    List.append_nil]
  rfl

theorem executingIds_set_perm {flights : List InFlight} {position thread : Nat}
    {model : CompiledModel} (found : flights[position]? = some ⟨thread, model, none⟩)
    (result : NodeResult) :
    (executingIds (flights.set position ⟨thread, model, some result⟩)).Perm
      (model.id :: executingIds flights) := by
  have bound := (List.getElem?_eq_some_iff.mp found).1
  have new := (List.set_perm_cons_eraseIdx bound ⟨thread, model, some result⟩).filter
    (·.result?.isSome)
  have old := (perm_eraseIdx found).filter (·.result?.isSome)
  rw [List.filter_cons_of_pos rfl] at new
  rw [List.filter_cons_of_neg (by simp)] at old
  have executed := new.map (fun flight : InFlight => flight.model.id)
  exact executed.trans ((old.map (fun flight : InFlight => flight.model.id)).cons model.id)

theorem executingIds_eraseIdx_perm {flights : List InFlight} {position thread : Nat}
    {model : CompiledModel} (found : flights[position]? = some ⟨thread, model, some result⟩) :
    (model.id :: executingIds (flights.eraseIdx position)).Perm (executingIds flights) := by
  have parts := (perm_eraseIdx found).filter (·.result?.isSome)
  rw [List.filter_cons_of_pos rfl] at parts
  exact parts.map fun flight => flight.model.id

/-- What is under way are the executions in flight that have been executed, which never were more
than the threads.  What has been executed is in flight or has a result that tells a thread of the
run, and no other result tells one. -/
structure WithinThreads (plan : RunPlan) (progress : Progress σ) : Prop where
  underWay : RunEvent.underWay progress.events = (executingIds progress.inFlight).length
  bounded : ∀ early, early <+: progress.events → RunEvent.underWay early ≤ max plan.threads 1
  executed : (RunEvent.startedIds progress.events).Perm
    (threadedIds progress.results ++ executingIds progress.inFlight)
  thread : ∀ result ∈ progress.results, result.thread = none ∨
    ∃ thread, 1 ≤ thread ∧ thread ≤ max plan.threads 1 ∧
      result.thread = some ("Thread-" ++ toString thread)

theorem WithinThreads.append_event {event : RunEvent} (within : before.WithinThreads plan)
    (later : after.Threaded plan) (events : after.events = before.events ++ [event])
    (count : RunEvent.advance (executingIds before.inFlight).length event =
      (executingIds after.inFlight).length) :
    RunEvent.underWay after.events = (executingIds after.inFlight).length ∧
      ∀ early, early <+: after.events → RunEvent.underWay early ≤ max plan.threads 1 := by
  have now : RunEvent.underWay after.events = (executingIds after.inFlight).length := by
    rw [events, RunEvent.underWay, List.foldl_append, ← count, ← within.underWay]
    rfl
  refine ⟨now, fun early inside => ?_⟩
  rw [events, List.prefix_concat_iff] at inside
  rcases inside with whole | earlier
  · rw [whole, ← events, now]
    exact (length_executingIds_le after.inFlight).trans later.length_le
  · exact within.bounded early earlier

theorem WithinThreads.handsOver (within : before.WithinThreads plan)
    (earlier : before.Threaded plan) (later : after.Threaded plan)
    (hands : before.HandsOver after) : after.WithinThreads plan := by
  cases hands with
  | kept results threadless inFlight freeThreads events =>
    refine ⟨?_, ?_, ?_, fun result member => ?_⟩
    · rw [events, inFlight]
      exact within.underWay
    · rw [events]
      exact within.bounded
    · rw [events, inFlight, results, threadedIds_append, threadedIds_of_threadless threadless,
        List.append_nil]
      exact within.executed
    · rw [results] at member
      rcases List.mem_append.mp member with old | new
      · exact within.thread result old
      · exact .inl (threadless result new)
  | @taken thread model results inFlight freeThreads events =>
    have same := executingIds_append_of_fresh before.inFlight thread model
    rw [← inFlight] at same
    refine ⟨?_, ?_, ?_, results ▸ within.thread⟩
    · rw [events, same]
      exact within.underWay
    · rw [events]
      exact within.bounded
    · rw [events, results, same]
      exact within.executed
  | @executed position thread model result found results inFlight freeThreads events =>
    have parts := executingIds_set_perm found result
    rw [← inFlight] at parts
    obtain ⟨now, bounded⟩ := within.append_event later events parts.length_eq.symm
    refine ⟨now, bounded, ?_, results ▸ within.thread⟩
    rw [events, results, RunEvent.startedIds_append, RunEvent.startedIds_started]
    calc
      (RunEvent.startedIds before.events ++ [model.id]).Perm
          (threadedIds before.results ++ executingIds before.inFlight ++ [model.id]) :=
        within.executed.append_right _
      _ = threadedIds before.results ++ (executingIds before.inFlight ++ [model.id]) :=
        List.append_assoc _ _ _
      List.Perm _ (threadedIds before.results ++ executingIds after.inFlight) :=
        ((List.perm_append_singleton _ _).trans parts.symm).append_left _
  | @returned position thread model result skipped found same results threadless inFlight
      freeThreads events =>
    have flies := List.mem_of_getElem? found
    have parts := executingIds_eraseIdx_perm found
    rw [← inFlight] at parts
    have count : (executingIds before.inFlight).length - 1 =
        (executingIds after.inFlight).length := by
      rw [← parts.length_eq]
      rfl
    obtain ⟨now, bounded⟩ := within.append_event later events count
    refine ⟨now, bounded, ?_, fun other member => ?_⟩
    · rw [events, results, RunEvent.startedIds_append, RunEvent.startedIds_completed,
        List.append_nil, threadedIds_append,
        threadedIds_cons_of_thread (earlier.thread _ flies result rfl),
        threadedIds_of_threadless threadless, List.append_assoc, same]
      exact within.executed.trans (parts.symm.append_left _)
    · rw [results] at member
      rcases List.mem_append.mp member with old | new
      · exact within.thread other old
      rcases List.mem_cons.mp new with rfl | skip
      · exact .inr (earlier.exists_thread flies rfl)
      · exact .inl (threadless other skip)

theorem freeThreads_close (progress : Progress σ) :
    progress.close.freeThreads = progress.freeThreads := by
  unfold close
  split <;> rfl

theorem exists_threadless_close (progress : Progress σ) :
    ∃ stranded, progress.close.results = progress.results ++ stranded ∧
      ∀ result ∈ stranded, result.thread = none := by
  obtain ⟨names, results⟩ := progress.exists_results_close
  refine ⟨_, results, fun result member => ?_⟩
  obtain ⟨name, -, rfl⟩ := List.mem_map.mp member
  rfl

end Progress

namespace RunPlan

variable {σ : Type} {plan : RunPlan} {graph : Graph} {compiled : Compilation}
  {selected : NameSet} {executor : Executor σ} {state : σ} {order : Nat → Nat} {moment : Nat}
  {progress : Progress σ}

open Progress

theorem within_threads_after (keyed : compiled.Keyed)
    (reached : plan.after graph compiled selected executor state order moment = .ok progress) :
    progress.WithinThreads plan := by
  refine after_induction keyed (motive := fun _ progress => progress.WithinThreads plan) ?_ ?_
    reached
  · refine ⟨rfl, fun early inside => ?_, .nil, fun result member => absurd member List.not_mem_nil⟩
    rw [List.prefix_nil.mp inside]
    exact Nat.zero_le _
  · intro _ before after accounted moves within
    have later := (accounted.moves keyed moves).threaded
    exact within.handsOver accounted.threaded later (moves.handsOver accounted)

/-- Whatever the graph, the selection, the command, the number of threads, the executor and the
order in which nodes are executed and complete, before and after every step of a run of a compiled
project each thread, from 1 to their number, is free or carries exactly one execution.  So there are
no more executions in flight than threads, and they tell different threads.  A step keeps the
threads as they are, hands a model to a free one or gives back that of an execution that completes.
At the end all threads are free, there were never more executions under way than threads, and the
nodes that have been executed are exactly those whose results tell a thread, which is one of the
run. -/
theorem threads_accounted {compiled : Compilation} (made : compiled.Made) (plan : RunPlan)
    (graph : Graph) (selected : NameSet) (executor : Executor σ) (state : σ) (order : Nat → Nat) :
    (∀ moment, ∃ before after,
      plan.after graph compiled selected executor state order moment = .ok before ∧
      plan.after graph compiled selected executor state order (moment + 1) = .ok after ∧
      before.Threaded plan ∧ after.Threaded plan ∧ before.HandsOver after) ∧
    ∃ final, plan.run graph compiled selected executor state order = .ok final ∧
      final.freeThreads.Perm ((List.range (max plan.threads 1)).map (· + 1)) ∧
      RunEvent.mostAtOnce final.events ≤ max plan.threads 1 ∧
      (RunEvent.startedIds final.events).Perm
        ((final.results.filter (·.thread.isSome)).map (·.id)) ∧
      ∀ result ∈ final.results, result.thread = none ∨
        ∃ thread, 1 ≤ thread ∧ thread ≤ max plan.threads 1 ∧
          result.thread = some ("Thread-" ++ toString thread) := by
  have keyed := made.keyed
  constructor
  · intro moment
    obtain ⟨after, reached, later⟩ :=
      exists_after plan graph selected executor state order keyed (moment + 1)
    obtain ⟨before, earlier, accounted, moves⟩ := exists_before keyed reached
    exact ⟨before, after, earlier, reached, accounted.threaded, later.threaded,
      moves.handsOver accounted⟩
  · obtain ⟨last, settled, accounted, rests, run⟩ :=
      exists_run plan graph selected executor state order keyed
    have reached := settled _ (Nat.le_refl _)
    have within := within_threads_after keyed reached
    obtain ⟨stranded, results, threadless⟩ := last.exists_threadless_close
    have events : last.close.events = last.events := last.close_frame.2.1
    refine ⟨last.close, run, ?_, ?_, ?_, fun result member => ?_⟩
    · have threads := accounted.threads
      rw [rests.2, List.map_nil, List.append_nil] at threads
      rw [freeThreads_close]
      exact threads
    · rw [events]
      exact RunEvent.mostAtOnce_le within.bounded
    · have executed := within.executed
      rw [rests.2] at executed
      rw [events, ← threadedIds, results, threadedIds_append,
        threadedIds_of_threadless threadless]
      exact executed
    · rw [results] at member
      rcases List.mem_append.mp member with recorded | skipped
      · exact within.thread result recorded
      · exact .inl (threadless result skipped)

/-- Two threads are enough for two models that do not wait for each other, and they are on different
ones. -/
theorem threads_accounted_branch :
    ∃ project, Project.ofSources (.default "") branchFiles = .ok project ∧
      ∃ before : Progress Unit,
        onTwoThreads.after project.graph project.compile project.graph.nodes (.rehearsal .empty) ()
          (fun _ => 0) 2 = .ok before ∧
        before.freeThreads = [] ∧ before.Threaded onTwoThreads := by
  obtain ⟨project, loaded, passes⟩ := Project.exists_loaded (.default "") branchFiles
    (fun project : Project =>
      (onTwoThreads.after project.graph project.compile project.graph.nodes (.rehearsal .empty) ()
        (fun _ => 0) 2).toOption.any fun progress : Progress Unit =>
          decide (progress.freeThreads = []))
    (by decide +kernel)
  have made : project.compile.Made := .ofProject loaded project.settings
  obtain ⟨steps, -⟩ := threads_accounted made onTwoThreads project.graph project.graph.nodes
    (.rehearsal .empty) () fun _ => 0
  obtain ⟨before, -, reached, -, threaded, -⟩ := steps 2
  rw [reached] at passes
  simp only [Except.toOption, Option.any_some, decide_eq_true_iff] at passes
  exact ⟨project, loaded, before, reached, passes, threaded⟩

end RunPlan
end SqlPipeline
