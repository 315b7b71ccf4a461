import SqlPipeline.Proofs.Schedule.Bookkeeping

/-!
# When a node cannot be marked as done

Marking a node as done is refused for one of three reasons, each of which is found before anything
has changed.  Behind them the call could still fail while it releases children or skips descendants,
but the books of the queue rule that out, so a call that fails leaves the queue as it was.
-/

namespace SqlPipeline

theorem NodeStatus.isTerminal_iff {status : NodeStatus} :
    status.isTerminal = true ↔ status = .success ∨ status = .error ∨ status = .skipped := by
  cases status <;> simp [isTerminal]

theorem NodeStatus.isTerminal_eq_false_iff {status : NodeStatus} :
    status.isTerminal = false ↔ status = .pending ∨ status = .running := by
  cases status <;> simp [isTerminal]

namespace Queue

variable {graph : Graph} {selected : NameSet} {queue before after : Queue} {name : String}
  {names listed : List String} {node : ScheduledNode} {status : NodeStatus}

/-! ## Nodes keep their names -/

/-- The nodes carry the names under which they are found. -/
def Named (queue : Queue) : Prop :=
  ∀ name node, queue.nodes.get? name = some node → node.name = name

/-- Two queues hold nodes of the same names. -/
def SameNames (before after : Queue) : Prop :=
  ∀ name, (after.nodes.get? name).map (·.name) = (before.nodes.get? name).map (·.name)

theorem SameNames.refl (queue : Queue) : queue.SameNames queue := fun _ => rfl

theorem SameNames.trans {middle : Queue} (first : before.SameNames middle)
    (second : middle.SameNames after) : before.SameNames after :=
  fun name => (second name).trans (first name)

theorem SameNames.named (same : before.SameNames after) (named : before.Named) : after.Named := by
  intro name node found
  have held := same name
  rw [found, Option.map_some] at held
  obtain ⟨old, there, equal⟩ := Option.map_eq_some_iff.mp held.symm
  rw [← equal, named name old there]

theorem sameNames_ended (found : queue.nodes.get? name = some node) (status : NodeStatus) :
    queue.SameNames (queue.setNode name (node.ended status)) := by
  intro other
  rw [get?_setNode]
  split
  next equal =>
    rw [equal, found]
    rfl
  next => rfl

theorem Popped.sameNames (effect : Popped before name node after) : before.SameNames after := by
  intro other
  rw [effect.nodes]
  split
  next equal =>
    rw [equal, effect.found]
    rfl
  next => rfl

theorem Released.sameNames (effect : Released names before listed after) :
    before.SameNames after := by
  have kept : ∀ node : ScheduledNode, node.released.name = node.name := by
    intro node
    unfold ScheduledNode.released
    split <;> rfl
  intro other
  rw [effect.nodes]
  split
  · rw [Option.map_map]
    exact congrArg (Option.map · _) (funext kept)
  · rfl

theorem Skipped.sameNames (effect : Skipped names before listed after) :
    before.SameNames after := by
  have kept : ∀ node : ScheduledNode, node.skipped.name = node.name := by
    intro node
    unfold ScheduledNode.skipped
    split <;> rfl
  intro other
  rw [effect.nodes]
  split
  · rw [Option.map_map]
    exact congrArg (Option.map · _) (funext kept)
  · rfl

theorem Succeeded.sameNames (effect : Succeeded before name node listed after) :
    before.SameNames after :=
  (sameNames_ended effect.found _).trans effect.released.sameNames

theorem Failed.sameNames (effect : Failed before name node status listed after) :
    before.SameNames after :=
  (sameNames_ended effect.found _).trans effect.skipped.sameNames

theorem named_ofGraph (graph : Graph) (selected : NameSet) : (ofGraph graph selected).Named := by
  intro name node found
  rw [ofGraph_get?] at found
  split at found <;> cases found
  rfl

theorem Tracks.sameNames_call (tracks : queue.Tracks graph selected) (call : Call) :
    queue.SameNames (queue.call call) := by
  cases call with
  | popReady =>
    rcases tracks.popReady_cases with ⟨-, run⟩ | ⟨name, node, after, run, effect⟩
    · simpa only [Queue.call, run] using SameNames.refl queue
    · simpa only [Queue.call, run] using effect.sameNames
  | markDone name status =>
    rcases tracks.markDone_cases name status with
      ⟨error, run, -⟩ | ⟨-, node, listed, after, run, effect⟩ | ⟨node, listed, after, run, effect⟩
    · simpa only [Queue.call, run] using SameNames.refl queue
    · simpa only [Queue.call, run] using effect.sameNames
    · simpa only [Queue.call, run] using effect.sameNames
  | skipRemaining =>
    exact (skipRemaining_skipped fun name member => tracks.status?_of_ready member).sameNames

theorem Tracks.named_afterCalls (tracks : queue.Tracks graph selected) (named : queue.Named)
    (calls : List Call) : (queue.afterCalls calls).Named := by
  induction calls generalizing queue with
  | nil => exact named
  | cons call calls ih => exact ih (tracks.call call) ((tracks.sameNames_call call).named named)

/-! ## The answer of a call -/

/-- What marking a node as done comes to: one of three refusals, which leave the queue as it was, or
an update. -/
theorem Tracks.markDone_answers (tracks : queue.Tracks graph selected) (named : queue.Named)
    (name : String) (status : NodeStatus) :
    (queue.nodes.get? name = none ∧
      queue.markDone name status = (.error (.unknownNode name), queue)) ∨
    (∃ node, queue.nodes.get? name = some node ∧ node.status ≠ .running ∧
      queue.markDone name status = (.error (.notRunning name), queue)) ∨
    ((∃ node, queue.nodes.get? name = some node ∧ node.status = .running) ∧
      status.isTerminal = false ∧ queue.markDone name status =
        (.error (.node (.invalidTransition name .running status)), queue)) ∨
    ((∃ node, queue.nodes.get? name = some node ∧ node.status = .running) ∧
      status.isTerminal = true ∧
        ∃ update after, queue.markDone name status = (.ok update, after)) := by
  cases found : queue.nodes.get? name with
  | none => exact .inl ⟨rfl, markDone_of_absent found status⟩
  | some node =>
    by_cases running : node.status = .running
    · cases final : status.isTerminal with
      | false =>
        have refused := markDone_of_not_final found running final
        rw [named name node found] at refused
        exact .inr (.inr (.inl ⟨⟨node, rfl, running⟩, rfl, refused⟩))
      | true =>
        have runs : queue.status? name = some .running := by rw [status?_of_get? found, running]
        rcases tracks.markDone_of_running runs final with
          ⟨-, _, _, after, run, -⟩ | ⟨_, _, after, run, -⟩
        · exact .inr (.inr (.inr ⟨⟨node, rfl, running⟩, rfl, _, after, run⟩))
        · exact .inr (.inr (.inr ⟨⟨node, rfl, running⟩, rfl, _, after, run⟩))
    · exact .inr (.inl ⟨node, rfl, running, markDone_of_not_running found running status⟩)

/-- Whatever calls have been made of a queue, marking a node as done is refused because the node is
not in the queue, because it is not running, or because the status is not a final one, exactly if
that is so, and it succeeds otherwise.  A call that is refused leaves the whole queue as it was. -/
theorem markDone_afterCalls (graph : Graph) (selected : NameSet) (calls : List Call) (name : String)
    (status : NodeStatus) :
    let queue := (ofGraph graph selected).afterCalls calls
    let answer := (queue.markDone name status).1
    (answer = .error (.unknownNode name) ↔ queue.nodes.get? name = none) ∧
    (answer = .error (.notRunning name) ↔
      ∃ node, queue.nodes.get? name = some node ∧ node.status ≠ .running) ∧
    (answer = .error (.node (.invalidTransition name .running status)) ↔
      (∃ node, queue.nodes.get? name = some node ∧ node.status = .running) ∧
        (status = .pending ∨ status = .running)) ∧
    ((∃ update, answer = .ok update) ↔
      (∃ node, queue.nodes.get? name = some node ∧ node.status = .running) ∧
        (status = .success ∨ status = .error ∨ status = .skipped)) ∧
    ∀ error, answer = .error error →
      (queue.markDone name status).2 = queue ∧
        (error = .unknownNode name ∨ error = .notRunning name ∨
          error = .node (.invalidTransition name .running status)) := by
  intro queue answer
  have tracks : queue.Tracks graph selected := (tracks_ofGraph graph selected).afterCalls calls
  have named : queue.Named :=
    (tracks_ofGraph graph selected).named_afterCalls (named_ofGraph graph selected) calls
  rw [← NodeStatus.isTerminal_iff, ← NodeStatus.isTerminal_eq_false_iff]
  rcases tracks.markDone_answers named name status with
    ⟨absent, run⟩ | ⟨node, found, resting, run⟩ | ⟨⟨node, found, running⟩, final, run⟩ |
      ⟨⟨node, found, running⟩, final, update, after, run⟩
  · simp [answer, run, absent]
  · simp [answer, run, found, resting]
  · simp [answer, run, found, running, final]
  · simp [answer, run, found, running, final]

end Queue
end SqlPipeline
