import SqlPipeline.Proofs.Graph.Cycle

/-!
# Finding a cycle with a stack

A depth-first search can also be run as a loop that keeps the nodes on its path on a stack, each
with the number of its children that were looked at, and marks every node that it meets.  The nodes
that are marked as being visited are always those on the stack, so a node that is met again has a
place there, and the loop ends with what the recursive search finds.
-/

namespace SqlPipeline

/-- What a search knows of a node that it has met. -/
inductive Descent.Mark where
  /-- The node is on the stack. -/
  | visiting
  /-- The node has left the stack. -/
  | done
deriving DecidableEq

/-- A search under way. -/
structure Descent where
  /-- The nodes that the search has not yet started from. -/
  starts : List String
  marks : NameMap Descent.Mark
  /-- The nodes on the path and how many of their children were looked at, the latest node first. -/
  stack : List (String × Nat)

namespace Descent

/-- The search before its first round. -/
def start (graph : Graph) : Descent := ⟨graph.nodes.toList, .empty, []⟩

/-- The stack from the lowest place of a node upwards, and the node once more; it is the whole stack
if the node has no place there. -/
def cycleAt (stack : List (String × Nat)) (name : String) : List String :=
  let way := stack.reverse.map (·.1)
  way.drop ((way.idxOf? name).getD 0) ++ [name]

/-- One round of the loop, which ends the search with a cycle or without one, or goes on. -/
def next (graph : Graph) : Descent → Option (List String) ⊕ Descent
  | ⟨[], _, []⟩ => .inl none
  | ⟨start :: starts, marks, []⟩ =>
    if marks.contains start then .inr ⟨starts, marks, []⟩
    else .inr ⟨starts, marks.insert start .visiting, [(start, 0)]⟩
  | ⟨starts, marks, (name, index) :: below⟩ =>
    match (graph.children name)[index]? with
    | none => .inr ⟨starts, marks.insert name .done, below⟩
    | some child =>
      let stack := (name, index + 1) :: below
      match marks.get? child with
      | some .visiting => .inl (some (cycleAt stack child))
      | some .done => .inr ⟨starts, marks, stack⟩
      | none => .inr ⟨starts, marks.insert child .visiting, (child, 0) :: stack⟩

/-- A search comes to another one after some rounds. -/
def Reaches (graph : Graph) : Descent → Descent → Prop :=
  Relation.ReflTransGen fun before after => before.next graph = .inr after

/-- A search ends with an answer after some rounds. -/
def Ends (graph : Graph) (descent : Descent) (answer : Option (List String)) : Prop :=
  ∃ last, Reaches graph descent last ∧ last.next graph = .inl answer

variable {graph : Graph} {before after : Descent} {starts path done names : List String}
  {marks : NameMap Mark} {stack below : List (String × Nat)} {name child : String}
  {index fuel : Nat} {first second answer : Option (List String)}

theorem Reaches.round (moved : before.next graph = .inr after) : Reaches graph before after :=
  .single moved

theorem Reaches.ends (reached : Reaches graph before after) (ended : Ends graph after answer) :
    Ends graph before answer := by
  obtain ⟨last, way, answered⟩ := ended
  exact ⟨last, reached.trans way, answered⟩

theorem Reaches.eq_of_answer (reached : Reaches graph before after)
    (answered : before.next graph = .inl answer) : before = after := by
  rcases reached.cases_head with same | ⟨middle, moved, -⟩
  · exact same
  · rw [answered] at moved
    cases moved

/-- A search ends in one way only. -/
theorem Ends.unique (one : Ends graph before first) (other : Ends graph before second) :
    first = second := by
  obtain ⟨last, way, answered⟩ := one
  obtain ⟨last', way', answered'⟩ := other
  have determined : Relator.RightUnique fun before after : Descent =>
      before.next graph = .inr after :=
    fun _ _ _ moved moved' => Sum.inr_injective (moved.symm.trans moved')
  have same : last = last' := by
    rcases Relation.ReflTransGen.total_of_right_unique determined way way' with further | further
    · exact Reaches.eq_of_answer further answered
    · exact (Reaches.eq_of_answer further answered').symm
  subst same
  exact Sum.inl_injective (answered.symm.trans answered')

/-! ## The marks and the stack -/

/-- The marks tell what is on a path and what is done. -/
def Marked (marks : NameMap Mark) (path done : List String) : Prop :=
  ∀ name, marks.get? name =
    if name ∈ path then some .visiting else if name ∈ done then some .done else none

theorem Marked.visiting_iff (marked : Marked marks path done) :
    marks.get? name = some .visiting ↔ name ∈ path := by
  rw [marked]
  split <;> simp_all

theorem Marked.none_iff (marked : Marked marks path done) :
    marks.get? name = none ↔ name ∉ path ∧ name ∉ done := by
  rw [marked]
  split <;> simp_all

theorem Marked.of_done (marked : Marked marks path done) (mark : marks.get? name = some .done) :
    name ∉ path ∧ name ∈ done := by
  rw [marked] at mark
  split at mark <;> simp_all

theorem Marked.enter (marked : Marked marks path done) (name : String) :
    Marked (marks.insert name .visiting) (name :: path) done := by
  intro other
  rw [NameMap.get?_insert, marked]
  by_cases same : other = name <;> simp [same]

theorem Marked.leave (marked : Marked marks (name :: path) done) (absent : name ∉ path) :
    Marked (marks.insert name .done) path (name :: done) := by
  intro other
  rw [NameMap.get?_insert, marked]
  by_cases same : other = name
  · simp [same, absent]
  · simp [same]

/-- The nodes that are being visited are those on the stack, and none is there twice. -/
structure Sound (descent : Descent) : Prop where
  nodup : (descent.stack.map (·.1)).Nodup
  marked : ∃ done, Marked descent.marks (descent.stack.map (·.1)) done

theorem sound_start (graph : Graph) : (start graph).Sound where
  nodup := List.nodup_nil
  marked := ⟨[], fun _ => rfl⟩

/-- A node that has not been met is put on the stack. -/
theorem Sound.enter (sound : Sound ⟨starts, marks, stack⟩) (new : marks.get? name = none)
    (others : List String) : Sound ⟨others, marks.insert name .visiting, (name, 0) :: stack⟩ := by
  obtain ⟨nodup, done, marked⟩ := sound
  exact ⟨List.nodup_cons.mpr ⟨(marked.none_iff.mp new).1, nodup⟩, done, marked.enter name⟩

/-- The latest node leaves the stack. -/
theorem Sound.leave (sound : Sound ⟨starts, marks, (name, index) :: below⟩) :
    Sound ⟨starts, marks.insert name .done, below⟩ := by
  obtain ⟨nodup, done, marked⟩ := sound
  obtain ⟨absent, nodup⟩ := List.nodup_cons.mp nodup
  exact ⟨nodup, name :: done, marked.leave absent⟩

theorem Sound.round (sound : before.Sound) (moved : before.next graph = .inr after) :
    after.Sound := by
  unfold next at moved
  split at moved
  · cases moved
  next start starts marks =>
    split at moved
    · cases moved
      exact ⟨sound.nodup, sound.marked⟩
    next new =>
      cases moved
      exact sound.enter (by simpa [NameMap.contains] using new) starts
  next starts marks name index below =>
    -- Looking at a child only moves the index on.
    have looked : Sound ⟨starts, marks, (name, index + 1) :: below⟩ := ⟨sound.nodup, sound.marked⟩
    split at moved
    · cases moved
      exact sound.leave
    · split at moved
      · cases moved
      · cases moved
        exact looked
      next new =>
        cases moved
        exact looked.enter new starts

theorem Reaches.sound (reached : Reaches graph before after) (sound : before.Sound) :
    after.Sound := by
  induction reached with
  | refl => exact sound
  | tail _ moved ih => exact ih.round moved

/-- Seen from the lowest node of the stack, the way around a cycle begins where the node is that was
met again, and it is the way that the recursive search reads off its path. -/
theorem cycleAt_eq (nodup : (stack.map (·.1)).Nodup) (member : name ∈ stack.map (·.1)) :
    (∃ place, (stack.reverse.map (·.1)).idxOf? name = some place) ∧
      cycleAt stack name = name :: ((stack.map (·.1)).takeWhile (· ≠ name)).reverse ++ [name] := by
  obtain ⟨between, earlier, split⟩ := List.append_of_mem member
  rw [split] at nodup
  obtain ⟨-, later, apart⟩ := List.nodup_append.mp nodup
  have absent : name ∉ between := fun inside => apart name inside name List.mem_cons_self rfl
  have way : stack.reverse.map (·.1) = earlier.reverse ++ name :: between.reverse := by
    rw [List.map_reverse, split, List.reverse_append, List.reverse_cons, List.append_assoc,
      List.singleton_append]
  have first : name ∉ earlier.reverse := fun inside =>
    (List.nodup_cons.mp later).1 (List.mem_reverse.mp inside)
  obtain ⟨place, found⟩ := Option.isSome_iff_exists.mp
    (List.isSome_idxOf?.mpr (show name ∈ stack.reverse.map (·.1) by rw [way]; simp))
  have length : place = earlier.reverse.length := by
    have position := List.idxOf_eq_getD_idxOf? name (stack.reverse.map (·.1))
    rw [found, way, List.idxOf_append_of_notMem first, List.idxOf_cons_self] at position
    exact position.symm
  refine ⟨⟨place, found⟩, ?_⟩
  rw [cycleAt, found, split, Graph.takeWhile_ne absent, Option.getD_some, length, way,
    List.drop_left]

/-! ## The loop and the recursive search -/

/-- A loop does what a search does: it ends with the same cycle, or else comes back to the stack
when what the search is done with is marked so. -/
def Follows (graph : Graph) (starts : List String) (stack : List (String × Nat))
    (descent : Descent) : Except (List String) (List String) → Prop
  | .error cycle => Ends graph descent (some cycle)
  | .ok done => ∃ marks, Marked marks (stack.map (·.1)) done ∧
      Reaches graph descent ⟨starts, marks, stack⟩

theorem Follows.of_reaches {result : Except (List String) (List String)}
    (reached : Reaches graph before after) (follows : Follows graph starts stack after result) :
    Follows graph starts stack before result := by
  cases result with
  | error cycle => exact reached.ends follows
  | ok done =>
    obtain ⟨marks, marked, further⟩ := follows
    exact ⟨marks, marked, reached.trans further⟩

/-- The children of the latest node that are left are searched one after another, and the node is
done after them. -/
theorem follows_children {rest : List String}
    {visit : List String → String → Except (List String) (List String)}
    (absent : name ∉ stack.map (·.1))
    (each : ∀ index child, (graph.children name)[index]? = some child → ∀ marks done,
      Marked marks (name :: stack.map (·.1)) done →
      Follows graph starts ((name, index + 1) :: stack) ⟨starts, marks, (name, index) :: stack⟩
        (visit done child))
    (left : (graph.children name).drop index = rest)
    (marked : Marked marks (name :: stack.map (·.1)) done) :
    Follows graph starts stack ⟨starts, marks, (name, index) :: stack⟩
      (do let done ← rest.foldlM visit done; .ok (name :: done)) := by
  induction rest generalizing index marks done with
  | nil =>
    have none : (graph.children name)[index]? = none :=
      List.getElem?_eq_none (List.drop_eq_nil_iff.mp left)
    exact ⟨_, marked.leave absent, .round (by simp only [next, none])⟩
  | cons child rest ih =>
    have here : (graph.children name)[index]? = some child := by
      rw [← List.head?_drop, left, List.head?_cons]
    have later : (graph.children name).drop (index + 1) = rest := by
      rw [← List.tail_drop, left, List.tail_cons]
    have visited := each index child here marks done marked
    rw [List.foldlM_cons]
    cases result : visit done child with
    | error cycle =>
      rw [result] at visited
      exact visited
    | ok middle =>
      rw [result] at visited
      obtain ⟨marks, marked, reached⟩ := visited
      exact (ih later marked).of_reaches reached

/-- What is on the stack when a node has just been put there is what the search of the node has on
its path. -/
theorem follows_search (trail : graph.Trail (stack.map (·.1)) name)
    (deep : graph.size < (stack.map (·.1)).length + fuel) (new : marks.get? name = none)
    (marked : Marked marks (stack.map (·.1)) done) :
    Follows graph starts stack ⟨starts, marks.insert name .visiting, (name, 0) :: stack⟩
      (graph.search fuel (stack.map (·.1)) done name) := by
  induction fuel generalizing name stack marks done with
  | zero => exact absurd trail.length_le (Nat.not_le.mpr deep)
  | succ fuel ih =>
    obtain ⟨absent, undone⟩ := marked.none_iff.mp new
    rw [Graph.search, if_neg absent, if_neg undone]
    refine follows_children absent (fun index child here marks done marked => ?_) rfl
      (marked.enter name)
    have trail : graph.Trail (((name, index + 1) :: stack).map (·.1)) child :=
      trail.child absent (List.mem_of_getElem? here)
    have deeper : graph.size < (((name, index + 1) :: stack).map (·.1)).length + fuel := by
      rw [List.map_cons, List.length_cons]
      omega
    obtain ⟨level, rfl⟩ := Nat.exists_eq_add_one.mpr (show 0 < fuel by
      have short := trail.length_le
      omega)
    cases mark : marks.get? child with
    | none =>
      have entered : Reaches graph ⟨starts, marks, (name, index) :: stack⟩
          ⟨starts, marks.insert child .visiting, (child, 0) :: (name, index + 1) :: stack⟩ :=
        .round (by simp only [next, here, mark])
      exact .of_reaches entered (ih trail deeper mark marked)
    | some met =>
      cases met with
      | visiting =>
        have member := marked.visiting_iff.mp mark
        have way := (cycleAt_eq trail.nodup member).2
        rw [Graph.search, if_pos member]
        exact ⟨_, .refl, by simp only [next, here, mark, way, List.map_cons]⟩
      | done =>
        obtain ⟨absent, member⟩ := marked.of_done mark
        rw [Graph.search, if_neg absent, if_pos member]
        exact ⟨marks, marked, .round (by simp only [next, here, mark])⟩

/-- The loop starts from one node after another. -/
theorem ends_starts (nodes : ∀ name ∈ starts, name ∈ graph.nodes) (marked : Marked marks [] done) :
    Ends graph ⟨starts, marks, []⟩
      (match starts.foldlM (graph.search (graph.size + 1) []) done with
        | .ok _ => none
        | .error cycle => some cycle) := by
  induction starts generalizing marks done with
  | nil => exact ⟨_, .refl, rfl⟩
  | cons name starts ih =>
    obtain ⟨member, others⟩ := List.forall_mem_cons.mp nodes
    have follows : Follows graph starts [] ⟨name :: starts, marks, []⟩
        (graph.search (graph.size + 1) [] done name) := by
      by_cases met : name ∈ done
      · have mark : marks.contains name = true := by
          simp [NameMap.contains, marked name, met]
        rw [Graph.search, if_neg List.not_mem_nil, if_pos met]
        exact ⟨marks, marked, .round (by rw [next, if_pos mark])⟩
      · have new : marks.get? name = none := marked.none_iff.mpr ⟨List.not_mem_nil, met⟩
        have entered : Reaches graph ⟨name :: starts, marks, []⟩
            ⟨starts, marks.insert name .visiting, [(name, 0)]⟩ :=
          .round (by simp [next, NameMap.contains, new])
        refine .of_reaches entered ?_
        have trail : graph.Trail (([] : List (String × Nat)).map (·.1)) name :=
          Graph.trail_nil member
        exact follows_search trail (by simp) new marked
    rw [List.foldlM_cons]
    cases result : graph.search (graph.size + 1) [] done name with
    | error cycle =>
      rw [result] at follows
      exact follows
    | ok found =>
      rw [result] at follows
      obtain ⟨marks, marked, reached⟩ := follows
      exact reached.ends (ih others marked)

theorem ends_start (graph : Graph) : Ends graph (start graph) graph.findCycle? :=
  ends_starts (fun _ member => NameSet.mem_toList.mp member) (fun _ => rfl)

end Descent

/-- The loop with a stack ends, and with nothing else than what the recursive search finds.
Whenever it goes through its rounds, the nodes that are marked as being visited are those on the
stack, each of them once, and a child that is met with this mark has a place on the stack, from
which the cycle is read. -/
theorem Graph.findCycle?_by_descent (graph : Graph) :
    (∀ answer, Descent.Ends graph (.start graph) answer ↔ answer = graph.findCycle?) ∧
    ∀ descent, Descent.Reaches graph (.start graph) descent →
      (∀ name, descent.marks.get? name = some .visiting ↔ name ∈ descent.stack.map (·.1)) ∧
      (descent.stack.map (·.1)).Nodup ∧
      ∀ name, descent.marks.get? name = some .visiting →
        ∃ place, (descent.stack.reverse.map (·.1)).idxOf? name = some place := by
  refine ⟨fun answer => ⟨fun ended => ended.unique (Descent.ends_start graph), ?_⟩, ?_⟩
  · rintro rfl
    exact Descent.ends_start graph
  · intro descent reached
    obtain ⟨nodup, done, marked⟩ := reached.sound (Descent.sound_start graph)
    exact ⟨fun _ => marked.visiting_iff, nodup, fun name mark =>
      (Descent.cycleAt_eq nodup (marked.visiting_iff.mp mark)).1⟩

end SqlPipeline
