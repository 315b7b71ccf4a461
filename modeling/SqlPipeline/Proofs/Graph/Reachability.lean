import SqlPipeline.Proofs.Graph.Contraction

/-!
# What lies above and below a node

The walks from a node list, each once and nearest first, exactly the other nodes from which a path
leads to it, or to which one leads from it.  A walk goes level by level, but it finds what a search
finds that takes names one at a time from a queue and puts their neighbours at its end, also where
the queue holds a name twice or comes back to the start.
-/

namespace SqlPipeline
namespace Walk

/-- What a search finds, in order: it takes the first name of a queue, passes over the start and
over names that it has visited, and puts the unvisited neighbours of any other name at the end. -/
inductive Finds (next : String → List String) (start : String) :
    List String → List String → List String → Prop
  | done (visited : List String) : Finds next start visited [] []
  | pass {visited queue found : List String} {name : String} :
      name = start ∨ name ∈ visited → Finds next start visited queue found →
      Finds next start visited (name :: queue) found
  | visit {visited queue found : List String} {name : String} :
      name ≠ start → name ∉ visited →
      Finds next start (name :: visited)
        (queue ++ (next name).filter (· ∉ name :: visited)) found →
      Finds next start visited (name :: queue) (name :: found)

variable {next : String → List String} {start name : String}
  {seen frontier visited queue found others names : List String}

/-- A search finds one list. -/
theorem Finds.unique (first : Finds next start visited queue found)
    (second : Finds next start visited queue others) : found = others := by
  induction first generalizing others with
  | done => cases second; rfl
  | pass known _ ih =>
    cases second with
    | pass _ rest => exact ih rest
    | visit other new => exact absurd known (not_or.mpr ⟨other, new⟩)
  | visit other new _ ih =>
    cases second with
    | pass known => exact absurd known (not_or.mpr ⟨other, new⟩)
    | visit _ _ rest => rw [ih rest]

/-! ## Unseen names -/

theorem fresh_congr (same : ∀ name, name ∈ seen ↔ name ∈ others) (names : List String) :
    fresh seen names = fresh others names := by
  induction names generalizing seen others with
  | nil => rfl
  | cons head tail ih =>
    have rest : fresh (head :: seen) tail = fresh (head :: others) tail := ih (by simp [same])
    simp only [fresh, same, ih same, rest]

theorem fresh_append (seen first second : List String) :
    fresh seen (first ++ second) = fresh seen first ++ fresh (first ++ seen) second := by
  induction first generalizing seen with
  | nil => rfl
  | cons head tail ih =>
    rw [List.cons_append, fresh, fresh]
    split
    next old =>
      have same : ∀ name, name ∈ tail ++ seen ↔ name ∈ head :: tail ++ seen := by
        intro name
        have known : name = head → name ∈ seen := fun equal => equal ▸ old
        simp only [List.cons_append, List.mem_cons, List.mem_append]
        tauto
      rw [ih, fresh_congr same]
    next =>
      have same : ∀ name, name ∈ tail ++ head :: seen ↔ name ∈ head :: tail ++ seen := by
        intro name
        simp only [List.cons_append, List.mem_cons, List.mem_append]
        tauto
      rw [ih, fresh_congr same]
      rfl

/-- Leaving out seen names changes nothing. -/
theorem fresh_filter_append {p : String → Bool}
    (dropped : ∀ name ∈ names, p name = false → name ∈ seen) (rest : List String) :
    fresh seen (names.filter p ++ rest) = fresh seen (names ++ rest) := by
  induction names generalizing seen with
  | nil => rfl
  | cons head tail ih =>
    obtain ⟨here, later⟩ := List.forall_mem_cons.mp dropped
    rw [List.cons_append]
    cases kept : p head with
    | false => rw [List.filter_cons_of_neg (by simp [kept]), fresh, if_pos (here kept), ih later]
    | true =>
      rw [List.filter_cons_of_pos kept, List.cons_append, fresh, fresh, ih later,
        ih fun name member out => List.mem_cons_of_mem _ (later name member out)]

/-! ## A queue goes level by level -/

/-- A search takes the unseen names of a queue before what stands behind them, and it puts their
neighbours at the end, apart from some that have been seen by then. -/
theorem exists_pushed (next : String → List String) (queue : List String)
    (same : ∀ name, name ∈ seen ↔ name = start ∨ name ∈ visited) :
    ∃ pushed,
      (∀ later, seen ⊆ later → fresh seen queue ⊆ later →
        fresh later pushed = fresh later ((fresh seen queue).flatMap next)) ∧
      ∀ back found,
        Finds next start ((fresh seen queue).reverse ++ visited) (back ++ pushed) found →
        Finds next start visited (queue ++ back) (fresh seen queue ++ found) := by
  induction queue generalizing seen visited with
  | nil => exact ⟨[], fun _ _ _ => rfl, fun back found run => by simpa [fresh] using run⟩
  | cons name queue ih =>
    rw [fresh]
    split
    next old =>
      obtain ⟨pushed, alike, run⟩ := ih same
      exact ⟨pushed, alike, fun back found rest => .pass ((same name).mp old) (run back found rest)⟩
    next new =>
      have same' : ∀ other, other ∈ name :: seen ↔ other = start ∨ other ∈ name :: visited := by
        intro other
        rw [List.mem_cons, List.mem_cons, same other]
        tauto
      obtain ⟨pushed, alike, run⟩ := ih same'
      obtain ⟨other, unvisited⟩ := not_or.mp (mt (same name).mpr new)
      -- Visited neighbours are not put in the queue, but the next level passes over them anyway.
      refine ⟨(next name).filter (· ∉ name :: visited) ++ pushed, fun later old level => ?_,
        fun back found rest => ?_⟩
      · obtain ⟨here, level⟩ := List.cons_subset.mp level
        have dropped : ∀ neighbour ∈ next name, decide (neighbour ∉ name :: visited) = false →
            neighbour ∈ later := by
          intro neighbour _ out
          have known := (same' neighbour).mpr (.inr (not_not.mp (of_decide_eq_false out)))
          exact List.cons_subset.mpr ⟨here, old⟩ known
        rw [List.flatMap_cons, fresh_filter_append dropped, fresh_append, fresh_append, alike]
        · exact List.cons_subset.mpr ⟨List.mem_append_right _ here,
            List.Subset.trans old (List.subset_append_right _ _)⟩
        · exact List.Subset.trans level (List.subset_append_right _ _)
      · have step := run (back ++ (next name).filter (· ∉ name :: visited)) found
          (by simpa using rest)
        rw [← List.append_assoc] at step
        exact .visit other unvisited step

theorem finds_nil (same : ∀ name, name ∈ seen ↔ name = start ∨ name ∈ visited)
    (none : fresh seen queue = []) : Finds next start visited queue [] := by
  induction queue with
  | nil => exact .done visited
  | cons name queue ih =>
    rw [fresh] at none
    split at none
    next old => exact .pass ((same name).mp old) (ih none)
    next => cases none

/-- A walk finds what a search finds when it has more levels than there are unseen names in a pool
that holds whatever is reached. -/
theorem finds_levels {fuel : Nat} (pool : Finset String)
    (bounded : ∀ name, Reaches next seen frontier name → name ∈ pool)
    (enough : (pool \ seen.toFinset).card < fuel)
    (same : ∀ name, name ∈ seen ↔ name = start ∨ name ∈ visited)
    (alike : fresh seen queue = fresh seen frontier) :
    Finds next start visited queue (levels next fuel seen frontier) := by
  induction fuel generalizing seen visited queue frontier with
  | zero => exact absurd enough (Nat.not_lt_zero _)
  | succ fuel ih =>
    rw [levels_succ]
    cases level : fresh seen frontier with
    | nil =>
      rw [List.flatMap_nil, levels_nil, List.append_nil]
      exact finds_nil same (alike.trans level)
    | cons first rest =>
      rw [← level]
      obtain ⟨pushed, behind, run⟩ := exists_pushed next queue same
      rw [alike] at behind run
      have here : first ∈ fresh seen frontier := level ▸ List.mem_cons_self
      have fewer := card_unseen_lt pool bounded here
      have same' : ∀ name, name ∈ seen ++ fresh seen frontier ↔
          name = start ∨ name ∈ (fresh seen frontier).reverse ++ visited := by
        intro name
        simp only [List.mem_append, List.mem_reverse, same name]
        tauto
      have search : Finds next start ((fresh seen frontier).reverse ++ visited) pushed
          (levels next fuel (seen ++ fresh seen frontier) ((fresh seen frontier).flatMap next)) :=
        ih (fun name reached => bounded name reached.of_next_level) (by omega) same'
          (behind _ (List.subset_append_left _ _) (List.subset_append_right _ _))
      simpa using run [] _ search

/-! ## Walks from a name -/

theorem levels_singleton (next : String → List String) (fuel : Nat) (start : String) :
    levels next (fuel + 1) [] [start] = start :: levels next fuel [start] (next start) := by
  rw [levels_succ]
  simp [fresh]

/-- A walk lists names in non-decreasing distance from its start. -/
theorem pairwise_distance_start (next : String → List String) (fuel : Nat) (start : String) :
    (levels next fuel [] [start]).Pairwise fun first second =>
      distance next start first ≤ distance next start second := by
  have leads : ∀ length name, ReachesIn next [] [start] length name ↔
      Leads (fun source target => target ∈ next source) length start name := by
    simp [ReachesIn, steps_nil]
  refine (pairwise_levels next fuel [] [start]).imp_of_mem fun {first second} _ member nearer => ?_
  obtain ⟨length, reached⟩ := reaches_iff_reachesIn.mp (reaches_of_mem_levels member)
  have shortest := ((leads length second).mp reached).attained
  obtain ⟨shorter, bound, reached⟩ := nearer _ ((leads _ second).mpr shortest)
  exact ((leads shorter first).mp reached).distance_le.trans bound

end Walk

namespace Graph

variable {graph : Graph} {next : String → List String} {name other : String}

theorem cons_walk (graph : Graph) (next : String → List String) (name : String) :
    name :: graph.walk next [name] (next name) = Walk.levels next (graph.size + 2) [] [name] :=
  (Walk.levels_singleton next (graph.size + 1) name).symm

theorem nodup_cons_walk (graph : Graph) (next : String → List String) (name : String) :
    (name :: graph.walk next [name] (next name)).Nodup :=
  cons_walk graph next name ▸ Walk.nodup_levels _ _ _ _

/-- A walk among the nodes of a graph lists what can be reached from its start, which it leaves
out. -/
theorem mem_walk (inside : ∀ name, next name ⊆ graph.nodes.toList) :
    other ∈ graph.walk next [name] (next name) ↔
      other ≠ name ∧ Relation.TransGen (fun source target => target ∈ next source) name other := by
  have whole : other ∈ name :: graph.walk next [name] (next name) ↔
      Relation.ReflTransGen (fun source target => target ∈ next source) name other := by
    have start : [name] ⊆ name :: graph.nodes.toList := by simp
    have closed : ∀ source ∈ name :: graph.nodes.toList, next source ⊆ name :: graph.nodes.toList :=
      fun source _ => List.subset_cons_of_subset _ (inside source)
    have enough : (name :: graph.nodes.toList).length < graph.size + 2 := Nat.lt_succ_self _
    rw [cons_walk, Walk.mem_levels_iff start closed enough]
    simp
  have absent : name ∉ graph.walk next [name] (next name) :=
    (List.nodup_cons.mp (nodup_cons_walk graph next name)).1
  rw [List.mem_cons, Relation.reflTransGen_iff_eq_or_transGen] at whole
  constructor
  · intro member
    have different : other ≠ name := fun same => absent (same ▸ member)
    exact ⟨different, (whole.mp (.inr member)).resolve_left different⟩
  · rintro ⟨different, path⟩
    exact (whole.mpr (.inr path)).resolve_left different

theorem pairwise_walk (graph : Graph) (next : String → List String) (name : String) :
    (graph.walk next [name] (next name)).Pairwise fun first second =>
      Walk.distance next name first ≤ Walk.distance next name second := by
  have whole := Walk.pairwise_distance_start next (graph.size + 2) name
  rw [← cons_walk] at whole
  exact whole.of_cons

/-- A search from a node ends, and what it finds is the walk from that node. -/
theorem finds_walk_iff (inside : ∀ name, next name ⊆ graph.nodes.toList) {found : List String} :
    Walk.Finds next name [] (next name) found ↔ found = graph.walk next [name] (next name) := by
  have bounded : ∀ other, Walk.Reaches next [name] (next name) other →
      other ∈ graph.nodes.toList.toFinset := by
    rintro other ⟨start, member, -, path⟩
    rw [List.mem_toFinset]
    rcases path.cases_tail with rfl | ⟨_, _, step⟩
    · exact inside name member
    · exact inside _ step.1
  have enough : (graph.nodes.toList.toFinset \ [name].toFinset).card < graph.size + 1 :=
    Nat.lt_succ_of_le ((Finset.card_le_card Finset.sdiff_subset).trans (List.toFinset_card_le _))
  have search : Walk.Finds next name [] (next name) (graph.walk next [name] (next name)) :=
    Walk.finds_levels graph.nodes.toList.toFinset bounded enough (by simp) rfl
  exact ⟨fun run => run.unique search, fun same => same ▸ search⟩

theorem mem_descendants_iff :
    other ∈ graph.descendants name ↔ other ≠ name ∧ graph.Precedes name other := by
  have edges : (fun source target => target ∈ graph.children source) = graph.Edge := by
    funext source target
    exact propext mem_children
  rw [descendants, mem_walk graph.children_subset_nodes, edges, Precedes]

theorem mem_ancestors_iff :
    other ∈ graph.ancestors name ↔ other ≠ name ∧ graph.Precedes other name := by
  have edges : (fun source target => target ∈ graph.parents source) = Function.swap graph.Edge := by
    funext source target
    exact propext mem_parents
  rw [ancestors, mem_walk graph.parents_subset_nodes, edges, Relation.transGen_swap, Precedes]

/-- From every name, a node of the graph or not, a search along the edges ends, and it finds the
descendants: exactly the other nodes to which a path leads, each once and none before a nearer one.
In the same way a search against the edges finds the ancestors.  A node is a descendant of another
one exactly when that is an ancestor of it, and two nodes are found to have a path exactly when
edges lead from the one to the other. -/
theorem walks_exact (graph : Graph) :
    (∀ name, (graph.descendants name).Nodup ∧
      (∀ other, other ∈ graph.descendants name ↔
        other ≠ name ∧ Relation.TransGen graph.Edge name other) ∧
      (graph.descendants name).Pairwise (fun first second =>
        Walk.distance graph.children name first ≤ Walk.distance graph.children name second) ∧
      ∀ found, Walk.Finds graph.children name [] (graph.children name) found ↔
        found = graph.descendants name) ∧
    (∀ name, (graph.ancestors name).Nodup ∧
      (∀ other, other ∈ graph.ancestors name ↔
        other ≠ name ∧ Relation.TransGen graph.Edge other name) ∧
      (graph.ancestors name).Pairwise (fun first second =>
        Walk.distance graph.parents name first ≤ Walk.distance graph.parents name second) ∧
      ∀ found, Walk.Finds graph.parents name [] (graph.parents name) found ↔
        found = graph.ancestors name) ∧
    (∀ upper lower, lower ∈ graph.descendants upper ↔ upper ∈ graph.ancestors lower) ∧
    ∀ source target, source ≠ target →
      (graph.hasPath source target = true ↔ Relation.TransGen graph.Edge source target) := by
  refine ⟨fun name => ⟨?_, fun other => mem_descendants_iff, graph.pairwise_walk _ name,
      fun found => finds_walk_iff graph.children_subset_nodes⟩,
    fun name => ⟨?_, fun other => mem_ancestors_iff, graph.pairwise_walk _ name,
      fun found => finds_walk_iff graph.parents_subset_nodes⟩,
    fun upper lower => ?_, fun source target different => ?_⟩
  · exact (graph.nodup_cons_walk graph.children name).of_cons
  · exact (graph.nodup_cons_walk graph.parents name).of_cons
  · rw [mem_descendants_iff, mem_ancestors_iff, ne_comm]
  · rw [hasPath, List.contains_iff_mem, mem_descendants_iff]
    exact and_iff_right different.symm

/-- A walk leaves out its start, also where it comes back to it. -/
example : ((((empty.addEdge "a" "a").addEdge "a" "b").addEdge "b" "a").addEdge "b" "c").descendants
    "a" = ["b", "c"] := by decide

end Graph
end SqlPipeline
