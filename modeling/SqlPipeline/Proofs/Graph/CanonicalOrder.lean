import SqlPipeline.Proofs.Graph.LeastOrder
import SqlPipeline.Proofs.Model.Building

/-!
# The order of a graph depends on nothing but the graph

Among the lists that hold every node once and every parent before its children, the topological sort
finds the least one.  This says which list it is without a word about how the sort goes on, so
graphs with the same nodes and the same edges are sorted alike, however often and in whatever order
these were added.  No count of waiting parents falls below zero on the way, whether the graph has
cycles or not.
-/

namespace SqlPipeline
namespace Graph

variable {graph first second : Graph} {names : List String}

/-- A list of all nodes, each of them once, in which every parent stands before its children. -/
structure IsTopological (graph : Graph) (names : List String) : Prop where
  perm : names.Perm graph.nodes.toList
  ascends : ∀ parent child, graph.Edge parent child → names.idxOf parent < names.idxOf child

/-- Parents stand before their children exactly when everything stands behind all that precedes
it. -/
theorem isOrder_nodes_iff : graph.IsOrder graph.nodes names ↔ graph.IsTopological names := by
  refine ⟨fun order => ⟨order.perm, fun _ _ => order.idxOf_lt⟩, fun order => ⟨order.perm, ?_⟩⟩
  intro front name back split ancestor _ path
  have earlier : names.idxOf ancestor < names.idxOf name := by
    clear split
    induction path with
    | single edge => exact order.ascends _ _ edge
    | tail _ edge ih => exact ih.trans (order.ascends _ _ edge)
  have here : names.idxOf name < (front ++ [name]).length := by
    refine (List.IsPrefix.mem_iff_idxOf_lt_length ⟨back, ?_⟩ name).mp (by simp)
    rw [split, List.append_assoc, List.singleton_append]
  refine (List.IsPrefix.mem_iff_idxOf_lt_length ⟨name :: back, split.symm⟩ ancestor).mpr ?_
  rw [List.length_append, List.length_singleton] at here
  omega

/-- The topological sort finds the least topological list of the nodes. -/
theorem topologicalSort?_iff_least :
    graph.topologicalSort? = some names ↔
      graph.IsTopological names ∧
        ∀ others, graph.IsTopological others → List.Lex (· < ·) names others ∨ names = others := by
  simp only [← isOrder_nodes_iff]
  rw [topologicalSort?_eq_some_iff]
  exact ⟨fun least => ⟨least.isOrder, least.lt_or_eq⟩, fun ⟨order, least⟩ => ⟨order, least⟩⟩

theorem IsTopological.congr (order : first.IsTopological names)
    (nodes : ∀ name, name ∈ first.nodes ↔ name ∈ second.nodes)
    (edges : ∀ parent child, first.Edge parent child ↔ second.Edge parent child) :
    second.IsTopological names := by
  refine ⟨NameSet.ext_mem nodes ▸ order.perm, fun parent child edge => ?_⟩
  exact order.ascends parent child ((edges parent child).mpr edge)

/-- Graphs with the same nodes and edges are sorted alike. -/
theorem topologicalSort?_congr (nodes : ∀ name, name ∈ first.nodes ↔ name ∈ second.nodes)
    (edges : ∀ parent child, first.Edge parent child ↔ second.Edge parent child) :
    first.topologicalSort? = second.topologicalSort? := by
  have same : ∀ names, first.IsTopological names ↔ second.IsTopological names := fun names =>
    ⟨fun order => order.congr nodes edges, fun order =>
      order.congr (fun name => (nodes name).symm) fun parent child => (edges parent child).symm⟩
  refine Option.ext fun names => ?_
  rw [topologicalSort?_iff_least, topologicalSort?_iff_least]
  simp only [same]

/-- Graphs to which the same nodes and edges are added are sorted alike, in whatever order and how
often these are added. -/
theorem topologicalSort?_build_congr {additions others : List Addition}
    (same : ∀ addition, addition ∈ additions ↔ addition ∈ others) :
    (build additions).topologicalSort? = (build others).topologicalSort? := by
  refine topologicalSort?_congr (fun name => ?_) fun parent child => ?_
  · simp only [build, mem_nodes_foldl_add, List.mem_flatMap, same]
  · simp only [build, Edge, mem_edges_foldl_add, List.mem_filterMap, same]

end Graph

/-! ## Counting down -/

namespace Sorting

variable {graph : Graph} {sorting last : Sorting}

theorem run?_of_empty (empty : ∀ name, name ∉ sorting.ready) (steps : Nat) :
    run? graph steps sorting = some sorting := by
  cases steps with
  | zero => rfl
  | succ steps => rw [run?, NameSet.popLeast?_eq_none_iff.mpr empty]

theorem run?_add (first second : Nat) (sorting : Sorting) :
    run? graph (first + second) sorting = run? graph first sorting >>= run? graph second := by
  induction first generalizing sorting with
  | zero => rw [Nat.zero_add, run?]; rfl
  | succ first ih =>
    rw [Nat.succ_add, run?, run?]
    cases popped : sorting.ready.popLeast? with
    | none => exact (run?_of_empty (NameSet.popLeast?_eq_none_iff.mp popped) second).symm
    | some entry => simp [ih, Option.bind_assoc]

/-- A sort has nothing to do after as many steps as there are nodes. -/
theorem run?_start_of_le {steps : Nat} (enough : graph.size ≤ steps) :
    run? graph steps (start graph) = run? graph graph.size (start graph) := by
  obtain ⟨last, run, tracks, ends⟩ := (tracks_start graph).exists_run graph.size
  have empty : ∀ name, name ∉ last.ready := by
    rcases ends with empty | full
    · exact empty
    · intro name ready
      obtain ⟨member, absent, -⟩ := (tracks.ready name).mp ready
      exact absent (tracks.arranged.mem_of_length (by simpa [start] using full) member)
  obtain ⟨more, rfl⟩ := Nat.exists_eq_add_of_le enough
  rw [run?_add, run]
  exact run?_of_empty empty more

end Sorting

namespace Graph

/-- A graph without a cycle is sorted into the least list of its nodes, each once and behind its
parents.  The result depends on which nodes and edges there are, not on how they were added.  On no
graph does a count fall below zero, however long the sort goes on, and it has nothing more to do
after as many steps as there are nodes. -/
theorem topologicalSort?_canonical (graph : Graph) :
    (graph.Acyclic → ∃ names, graph.topologicalSort? = some names ∧
      names.Perm graph.nodes.toList ∧
      (∀ parent child, graph.Edge parent child → names.idxOf parent < names.idxOf child) ∧
      ∀ others : List String, others.Perm graph.nodes.toList →
        (∀ parent child, graph.Edge parent child → others.idxOf parent < others.idxOf child) →
        List.Lex (· < ·) names others ∨ names = others) ∧
    (∀ other : Graph, (∀ name, name ∈ other.nodes ↔ name ∈ graph.nodes) →
      (∀ parent child, other.Edge parent child ↔ graph.Edge parent child) →
      other.topologicalSort? = graph.topologicalSort?) ∧
    (∀ additions others : List Addition, build additions = graph →
      (∀ addition, addition ∈ others ↔ addition ∈ additions) →
      (build others).topologicalSort? = graph.topologicalSort?) ∧
    (∀ steps, ∃ sorting, Sorting.run? graph steps (.start graph) = some sorting) ∧
    ∀ steps, graph.size ≤ steps →
      (Sorting.run? graph steps (.start graph)).map (·.placed) = graph.placedOrder? := by
  refine ⟨fun acyclic => ?_, fun other => topologicalSort?_congr, fun additions others built same =>
    built ▸ topologicalSort?_build_congr same, fun steps => ?_, fun steps enough => ?_⟩
  · obtain ⟨names, sorted⟩ := Option.isSome_iff_exists.mp (isSome_topologicalSort?_iff.mpr acyclic)
    obtain ⟨order, least⟩ := topologicalSort?_iff_least.mp sorted
    exact ⟨names, sorted, order.perm, order.ascends, fun others perm ascends =>
      least others ⟨perm, ascends⟩⟩
  · obtain ⟨sorting, run, -⟩ := (Sorting.tracks_start graph).exists_run steps
    exact ⟨sorting, run⟩
  · rw [Sorting.run?_start_of_le enough, placedOrder?]

/-- A graph is sorted in the same way when its edges are added in another order and one of them
twice. -/
theorem topologicalSort?_canonical_repeated :
    let graph := build [.edge "z" "m", .edge "m" "a", .edge "b" "a"]
    let repeated := build [.edge "b" "a", .edge "m" "a", .edge "z" "m", .edge "b" "a"]
    repeated.topologicalSort? = graph.topologicalSort? ∧
      ∃ names, graph.topologicalSort? = some names ∧
        names.idxOf "z" < names.idxOf "m" ∧ names.idxOf "m" < names.idxOf "a" ∧
        (List.Lex (· < ·) names ["z", "b", "m", "a"] ∨ names = ["z", "b", "m", "a"]) := by
  intro graph repeated
  obtain ⟨sorts, -, alike, -⟩ := topologicalSort?_canonical graph
  have acyclic : graph.Acyclic := isSome_topologicalSort?_iff.mp (by decide +kernel)
  obtain ⟨names, sorted, -, ascends, least⟩ := sorts acyclic
  have other : ∀ edge ∈ graph.edges,
      ["z", "b", "m", "a"].idxOf edge.1 < ["z", "b", "m", "a"].idxOf edge.2 := by decide +kernel
  exact ⟨alike _ _ rfl (by simp; tauto), names, sorted, ascends "z" "m" (by decide),
    ascends "m" "a" (by decide), least _ (by decide +kernel) fun _ _ edge => other _ edge⟩

end Graph
end SqlPipeline
