import Mathlib.Data.List.Chain
import SqlPipeline.Graph.Cycle
import SqlPipeline.Proofs.Graph.Order

/-!
# Finding a cycle exactly when there is one

A depth-first search keeps apart the nodes on its path and the nodes that it is done with.  The path
follows edges, so a node that is met on it again closes a cycle.  What is done is closed under
children, so nothing that is done lies on a cycle.  A path meets no node twice, so the search never
goes deeper than there are nodes.
-/

namespace SqlPipeline
namespace Graph

variable {graph : Graph} {path done names : List String} {name : String} {fuel : Nat}

/-- A list of nodes, each of which the next one depends on, that ends where it starts and otherwise
meets no node twice. -/
structure IsCycle (graph : Graph) (path : List String) : Prop where
  two_le_length : 2 ≤ path.length
  closed : path.head? = path.getLast?
  nodup : path.dropLast.Nodup
  edges : path.IsChain graph.Edge

theorem IsCycle.exists_precedes_self (cycle : graph.IsCycle path) :
    ∃ name, graph.Precedes name name := by
  obtain ⟨long, closed, -, edges⟩ := cycle
  match path, long with
  | first :: second :: rest, _ =>
    have last : first ∈ second :: rest := by
      rw [List.head?_cons, List.getLast?_cons_cons] at closed
      exact List.mem_of_getLast? closed.symm
    have paths : (first :: second :: rest).IsChain (Relation.TransGen graph.Edge) :=
      edges.imp fun _ _ edge => .single edge
    exact ⟨first, paths.rel_cons last⟩

/-- The nodes on the way to a node, with the latest one first: each leads to the one before it in
the list, and none occurs twice. -/
structure Trail (graph : Graph) (path : List String) (name : String) : Prop where
  nodup : path.Nodup
  subset_nodes : name :: path ⊆ graph.nodes.toList
  edges : (name :: path).IsChain fun later earlier => graph.Edge earlier later

theorem Trail.length_le (trail : graph.Trail path name) : path.length ≤ graph.size :=
  (trail.nodup.subperm (List.subset_of_cons_subset trail.subset_nodes)).length_le

theorem Trail.child {child : String} (trail : graph.Trail path name) (absent : name ∉ path)
    (neighbour : child ∈ graph.children name) : graph.Trail (name :: path) child where
  nodup := List.nodup_cons.mpr ⟨absent, trail.nodup⟩
  subset_nodes := by
    have edge : graph.Edge name child := mem_children.mp neighbour
    exact List.cons_subset.mpr ⟨edge.mem_nodes.2, trail.subset_nodes⟩
  edges := List.isChain_cons_cons.mpr ⟨mem_children.mp neighbour, trail.edges⟩

/-- Up to a node a list has what stands before it. -/
theorem takeWhile_ne {between before : List String} (absent : name ∉ between) :
    (between ++ name :: before).takeWhile (· ≠ name) = between := by
  rw [List.takeWhile_append_of_pos, List.takeWhile_cons_of_neg, List.append_nil]
  · simp
  · intro other inside
    simpa using ne_of_mem_of_not_mem inside absent

/-- Where a trail meets a node again, it has gone around a cycle. -/
theorem Trail.isCycle (trail : graph.Trail path name) (member : name ∈ path) :
    graph.IsCycle (name :: (path.takeWhile (· ≠ name)).reverse ++ [name]) := by
  obtain ⟨between, before, rfl⟩ := List.append_of_mem member
  obtain ⟨nodup, -, apart⟩ := List.nodup_append.mp trail.nodup
  have absent : name ∉ between := fun inside => apart name inside name List.mem_cons_self rfl
  -- Read backwards, the way around is the beginning of the trail.
  have around : (name :: between ++ [name]).IsChain fun later earlier =>
      graph.Edge earlier later := trail.edges.prefix ⟨before, by simp⟩
  have backwards : name :: between.reverse ++ [name] = (name :: between ++ [name]).reverse := by
    simp
  rw [takeWhile_ne absent]
  refine ⟨by simp, ?_, ?_, ?_⟩
  · rw [List.getLast?_concat]
    rfl
  · rw [List.dropLast_concat, List.nodup_cons, List.mem_reverse, List.nodup_reverse]
    exact ⟨absent, nodup⟩
  · rw [backwards, List.isChain_reverse]
    exact around

/-! ## What is done -/

/-- What is done is closed under children, lies on no cycle and is not on the path. -/
structure Explored (graph : Graph) (path done : List String) : Prop where
  closed : ∀ name ∈ done, graph.children name ⊆ done
  acyclic : ∀ name ∈ done, ¬ graph.Precedes name name
  apart : ∀ name ∈ path, name ∉ done

theorem Explored.mem_of_precedes {target : String} (explored : graph.Explored path done)
    (member : name ∈ done) (way : graph.Precedes name target) : target ∈ done := by
  induction way with
  | single edge => exact explored.closed _ member (mem_children.mpr edge)
  | tail _ edge ih => exact explored.closed _ ih (mem_children.mpr edge)

theorem Explored.enter (explored : graph.Explored path done) (new : name ∉ done) :
    graph.Explored (name :: path) done where
  closed := explored.closed
  acyclic := explored.acyclic
  apart := List.forall_mem_cons.mpr ⟨new, explored.apart⟩

/-- A node is done when all its children are: a cycle through it would pass through a child, and
everything behind the child is done already. -/
theorem Explored.leave (explored : graph.Explored (name :: path) done) (absent : name ∉ path)
    (children : graph.children name ⊆ done) : graph.Explored path (name :: done) where
  closed := by
    rintro other (_ | ⟨_, member⟩)
    · exact List.subset_cons_of_subset _ children
    · exact List.subset_cons_of_subset _ (explored.closed other member)
  acyclic := by
    rintro other (_ | ⟨_, member⟩)
    · intro way
      obtain ⟨child, edge, way⟩ := Relation.TransGen.head'_iff.mp way
      have inside : child ∈ done := children (mem_children.mpr edge)
      refine explored.apart name List.mem_cons_self ?_
      rcases Relation.reflTransGen_iff_eq_or_transGen.mp way with rfl | way
      · exact inside
      · exact explored.mem_of_precedes inside way
    · exact explored.acyclic other member
  apart := by
    intro other member
    rw [List.mem_cons, not_or]
    refine ⟨?_, explored.apart other (List.mem_cons_of_mem name member)⟩
    rintro rfl
    exact absent member

/-! ## The search -/

/-- What a search of some nodes comes to: a cycle, or everything that was done and the nodes
themselves. -/
structure Searched (graph : Graph) (path done names : List String)
    (result : Except (List String) (List String)) : Prop where
  error : ∀ cycle, result = .error cycle → graph.IsCycle cycle
  ok : ∀ found, result = .ok found →
    done ⊆ found ∧ names ⊆ found ∧ graph.Explored path found

/-- Nodes are searched one after another. -/
theorem searched_foldlM {visit : List String → String → Except (List String) (List String)}
    (each : ∀ name ∈ names, ∀ done, graph.Explored path done →
      graph.Searched path done [name] (visit done name))
    (explored : graph.Explored path done) :
    graph.Searched path done names (names.foldlM visit done) := by
  induction names generalizing done with
  | nil =>
    refine ⟨fun cycle failed => (nomatch failed), fun found run => ?_⟩
    cases run
    exact ⟨List.Subset.refl _, List.nil_subset _, explored⟩
  | cons name names ih =>
    have first := each name List.mem_cons_self done explored
    have rest := fun other member => each other (List.mem_cons_of_mem name member)
    rw [List.foldlM_cons]
    cases visited : visit done name with
    | error cycle =>
      refine ⟨fun other failed => ?_, fun found run => (nomatch run)⟩
      cases failed
      exact first.error cycle visited
    | ok middle =>
      obtain ⟨kept, new, explored⟩ := first.ok middle visited
      have later := ih rest explored
      refine ⟨later.error, fun found run => ?_⟩
      obtain ⟨more, others, explored⟩ := later.ok found run
      refine ⟨List.Subset.trans kept more, List.cons_subset.mpr ⟨?_, others⟩, explored⟩
      exact more (new List.mem_cons_self)

theorem searched_search (trail : graph.Trail path name) (explored : graph.Explored path done)
    (deep : graph.size < path.length + fuel) :
    graph.Searched path done [name] (graph.search fuel path done name) := by
  induction fuel generalizing path done name with
  | zero => exact absurd trail.length_le (Nat.not_le.mpr deep)
  | succ fuel ih =>
    rw [search]
    split
    next member =>
      refine ⟨fun cycle failed => ?_, fun found run => (nomatch run)⟩
      cases failed
      exact trail.isCycle member
    next absent =>
      split
      next member =>
        refine ⟨fun cycle failed => (nomatch failed), fun found run => ?_⟩
        cases run
        exact ⟨List.Subset.refl _, List.cons_subset.mpr ⟨member, List.nil_subset _⟩, explored⟩
      next new =>
        have deeper : graph.size < (name :: path).length + fuel := by
          rw [List.length_cons]
          omega
        have children : graph.Searched (name :: path) done (graph.children name)
            ((graph.children name).foldlM (graph.search fuel (name :: path)) done) :=
          searched_foldlM (fun child neighbour done explored =>
            ih (trail.child absent neighbour) explored deeper) (explored.enter new)
        cases run : (graph.children name).foldlM (graph.search fuel (name :: path)) done with
        | error cycle =>
          refine ⟨fun other failed => ?_, fun found run => (nomatch run)⟩
          cases failed
          exact children.error cycle run
        | ok found =>
          obtain ⟨kept, below, explored⟩ := children.ok found run
          refine ⟨fun cycle failed => (nomatch failed), fun found run => ?_⟩
          cases run
          exact ⟨List.subset_cons_of_subset _ kept,
            List.cons_subset.mpr ⟨List.mem_cons_self, List.nil_subset _⟩,
            explored.leave absent below⟩

theorem foldlM_congr {first second : List String → String → Except (List String) (List String)}
    (same : ∀ name ∈ names, ∀ done, first done name = second done name) :
    names.foldlM first done = names.foldlM second done := by
  induction names generalizing done with
  | nil => rfl
  | cons name names ih =>
    rw [List.foldlM_cons, List.foldlM_cons, same name List.mem_cons_self done]
    refine congrArg _ (funext fun middle => ih ?_)
    exact fun other member => same other (List.mem_cons_of_mem name member)

/-- A search that may go deeper than there are nodes finds the same when it may go deeper still. -/
theorem search_succ (trail : graph.Trail path name) (deep : graph.size < path.length + fuel) :
    graph.search (fuel + 1) path done name = graph.search fuel path done name := by
  induction fuel generalizing path done name with
  | zero => exact absurd trail.length_le (Nat.not_le.mpr deep)
  | succ fuel ih =>
    rw [search, search]
    split
    · rfl
    next absent =>
      rw [foldlM_congr fun child neighbour done =>
        ih (trail.child absent neighbour) (by rw [List.length_cons]; omega)]

/-! ## Cycles of a graph -/

/-- What a search finds that goes down at most a number of levels. -/
def cycleWithin? (graph : Graph) (depth : Nat) : Option (List String) :=
  match graph.nodes.toList.foldlM (graph.search depth []) [] with
  | .ok _ => none
  | .error cycle => some cycle

theorem trail_nil (member : name ∈ graph.nodes) : graph.Trail [] name where
  nodup := List.nodup_nil
  subset_nodes := List.cons_subset.mpr ⟨member, List.nil_subset _⟩
  edges := List.isChain_singleton name

theorem cycleWithin?_eq {depth : Nat} (deep : graph.size < depth) :
    graph.cycleWithin? depth = graph.findCycle? := by
  induction depth, deep using Nat.le_induction with
  | base => rfl
  | succ depth deep ih =>
    rw [← ih, cycleWithin?, cycleWithin?, foldlM_congr fun name member done =>
      search_succ (trail_nil member) (by rw [List.length_nil]; omega)]

theorem searched_nodes (graph : Graph) :
    graph.Searched [] [] graph.nodes.toList
      (graph.nodes.toList.foldlM (graph.search (graph.size + 1) []) []) := by
  refine searched_foldlM (fun name member done explored => ?_) ⟨by simp, by simp, by simp⟩
  exact searched_search (trail_nil member) explored (by rw [List.length_nil]; omega)

theorem isCycle_of_findCycle? (found : graph.findCycle? = some path) : graph.IsCycle path := by
  unfold findCycle? at found
  split at found
  · cases found
  next cycle failed =>
    cases found
    exact graph.searched_nodes.error path failed

/-- A search ends without a cycle exactly when no node precedes itself. -/
theorem findCycle?_eq_none_iff : graph.findCycle? = none ↔ graph.Acyclic := by
  constructor
  · intro none name path
    unfold findCycle? at none
    split at none
    next found run =>
      obtain ⟨-, all, explored⟩ := graph.searched_nodes.ok found run
      exact explored.acyclic name (all path.mem_nodes.1) path
    · cases none
  · intro acyclic
    by_contra some
    obtain ⟨cycle, found⟩ := Option.ne_none_iff_exists'.mp some
    obtain ⟨name, path⟩ := (isCycle_of_findCycle? found).exists_precedes_self
    exact acyclic name path

/-- The search for a cycle never goes deeper than there are nodes.  It finds none exactly when there
is a topological order, which is when no node can be reached from itself; and what it finds is a
cycle. -/
theorem findCycle?_agrees (graph : Graph) :
    (∀ depth, graph.size < depth → graph.cycleWithin? depth = graph.findCycle?) ∧
    (graph.findCycle? = none ↔ ∃ order, graph.topologicalSort? = some order) ∧
    (graph.findCycle? = none ↔ ∀ name, ¬ Relation.TransGen graph.Edge name name) ∧
    ∀ path, graph.findCycle? = some path →
      2 ≤ path.length ∧ path.head? = path.getLast? ∧ path.dropLast.Nodup ∧
        path.IsChain graph.Edge := by
  refine ⟨fun depth deep => cycleWithin?_eq deep, ?_, findCycle?_eq_none_iff, fun path found => ?_⟩
  · rw [findCycle?_eq_none_iff, ← isSome_topologicalSort?_iff, Option.isSome_iff_exists]
  · have cycle := isCycle_of_findCycle? found
    exact ⟨cycle.two_le_length, cycle.closed, cycle.nodup, cycle.edges⟩

/-- A cycle of two nodes is found in a graph that has another part without a cycle. -/
theorem findCycle?_agrees_pair :
    let graph := (((Graph.empty.addEdge "a" "b").addEdge "c" "d").addEdge "d" "c").addNode "e"
    graph.topologicalSort? = none ∧ graph.cycleWithin? 6 = graph.findCycle? ∧
      ∃ path, graph.findCycle? = some path ∧ path.length = 3 ∧ path.head? = path.getLast? := by
  intro graph
  have found : graph.findCycle? = some ["c", "d", "c"] := by decide +kernel
  obtain ⟨deep, order, -, cycle⟩ := graph.findCycle?_agrees
  refine ⟨?_, deep 6 (by decide), _, found, rfl, (cycle _ found).2.1⟩
  by_contra sorted
  rw [order.mpr (Option.ne_none_iff_exists'.mp sorted)] at found
  cases found

end Graph
end SqlPipeline
