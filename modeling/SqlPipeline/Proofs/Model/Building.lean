import SqlPipeline.Model.Call
import SqlPipeline.Proofs.Graph.Contraction

/-!
# Graphs that are built up

A graph is determined by the order in which its edges are added and by the names that are added
with them.  So it makes no difference whether nodes are added before the edges, with them or after
them.
-/

namespace SqlPipeline
namespace Graph

/-- What is added to a graph at once. -/
inductive Addition where
  | node (name : String)
  | edge (parent child : String)

namespace Addition

/-- The nodes that are there afterwards. -/
def names : Addition → List String
  | node name => [name]
  | edge parent child => [parent, child]

/-- The edge that is there afterwards. -/
def edge? : Addition → Option (String × String)
  | node _ => none
  | edge parent child => some (parent, child)

end Addition

/-- Add to a graph. -/
def add (graph : Graph) : Addition → Graph
  | .node name => graph.addNode name
  | .edge parent child => graph.addEdge parent child

/-- The graph of what is added to the empty one. -/
def build (additions : List Addition) : Graph := additions.foldl add .empty

variable {additions first second : List Addition} {name : String}

theorem mem_nodes_foldl_add (graph : Graph) :
    name ∈ (additions.foldl add graph).nodes ↔
      name ∈ graph.nodes ∨ name ∈ additions.flatMap Addition.names := by
  induction additions generalizing graph with
  | nil => simp
  | cons addition additions ih =>
    rw [List.foldl_cons, ih, List.flatMap_cons, List.mem_append]
    cases addition with
    | node other =>
      rw [add, mem_nodes_addNode]
      simp only [Addition.names, List.mem_singleton]
      tauto
    | edge parent child =>
      rw [add, mem_nodes_addEdge]
      simp only [Addition.names, List.mem_cons, List.not_mem_nil]
      tauto

theorem mem_edges_foldl_add (graph : Graph) {edge : String × String} :
    edge ∈ (additions.foldl add graph).edges ↔
      edge ∈ graph.edges ∨ edge ∈ additions.filterMap Addition.edge? := by
  induction additions generalizing graph with
  | nil => simp
  | cons addition additions ih =>
    rw [List.foldl_cons, ih]
    cases addition with
    | node name => rw [add, edges_addNode, List.filterMap_cons_none rfl]
    | edge parent child =>
      have first : (Addition.edge parent child).edge? = some (parent, child) := rfl
      rw [add, mem_edges_addEdge, List.filterMap_cons_some first, List.mem_cons, or_assoc]

theorem edges_addEdge (graph : Graph) (parent child : String) :
    (graph.addEdge parent child).edges = ModelCalls.addNew graph.edges (parent, child) := by
  by_cases there : (parent, child) ∈ graph.edges
  · simp [addEdge, ModelCalls.addNew, there]
  · simp [addEdge, ModelCalls.addNew, there]

theorem edges_foldl_add (graph : Graph) : (additions.foldl add graph).edges =
    (additions.filterMap Addition.edge?).foldl ModelCalls.addNew graph.edges := by
  induction additions generalizing graph with
  | nil => rfl
  | cons addition additions ih =>
    cases addition with
    | node name => exact ih (graph.addNode name)
    | edge parent child =>
      rw [List.foldl_cons, add, ih, edges_addEdge]
      rfl

/-- Graphs with the same nodes and the same edges in the same order are equal. -/
theorem eq_of_nodes_edges {graph other : Graph} (nodes : graph.nodes = other.nodes)
    (edges : graph.edges = other.edges) : graph = other := by
  cases graph
  cases other
  cases nodes
  cases edges
  rfl

/-- Graphs to which the same edges are added in the same order, with the same nodes, are equal. -/
theorem build_congr
    (edges : first.filterMap Addition.edge? = second.filterMap Addition.edge?)
    (names : ∀ name, name ∈ first.flatMap Addition.names ↔ name ∈ second.flatMap Addition.names) :
    build first = build second := by
  have edges : (build first).edges = (build second).edges := by
    rw [build, build, edges_foldl_add, edges_foldl_add, edges]
  have nodes : (build first).nodes = (build second).nodes := by
    refine NameSet.ext_mem fun name => ?_
    rw [build, build, mem_nodes_foldl_add, mem_nodes_foldl_add, names]
  exact eq_of_nodes_edges nodes edges

/-- The nodes of a list of entries, each with edges from its parents. -/
def readings (entries : List (String × List String)) : List Addition :=
  entries.flatMap fun entry => .node entry.1 :: entry.2.map (.edge · entry.1)

theorem edges_map_node (entries : List (String × List String)) :
    (entries.map fun entry => Addition.node entry.1).filterMap Addition.edge? = [] := by
  rw [List.filterMap_eq_nil_iff, List.forall_mem_map]
  exact fun _ _ => rfl

theorem edges_map_edge (parents : List String) (child : String) :
    (parents.map fun parent => Addition.edge parent child).filterMap Addition.edge? =
      parents.map fun parent => (parent, child) := by
  rw [List.filterMap_map]
  exact congrFun List.filterMap_eq_map parents

theorem edges_readings (entries : List (String × List String)) :
    (readings entries).filterMap Addition.edge? =
      entries.flatMap fun entry => entry.2.map fun parent => (parent, entry.1) := by
  rw [readings, List.filterMap_flatMap]
  refine List.flatMap_congr fun entry _ => ?_
  rw [List.filterMap_cons_none rfl, edges_map_edge]

theorem mem_names_readings {entries : List (String × List String)} :
    name ∈ (readings entries).flatMap Addition.names ↔
      ∃ entry ∈ entries, name = entry.1 ∨ name ∈ entry.2 := by
  rw [readings, List.flatMap_assoc, List.mem_flatMap]
  refine exists_congr fun entry => and_congr_right fun _ => ?_
  simp only [List.flatMap_cons, Addition.names, List.mem_append, List.mem_flatMap, List.mem_map,
    List.mem_cons, List.not_mem_nil]
  grind

theorem mem_nodes_readings {entries : List (String × List String)} :
    name ∈ (build (readings entries)).nodes ↔
      ∃ entry ∈ entries, name = entry.1 ∨ name ∈ entry.2 := by
  rw [build, mem_nodes_foldl_add, mem_names_readings]
  exact or_iff_right NameSet.mem_empty.mp

/-- There is an edge for every parent of an entry, and no other. -/
theorem edge_readings_iff {entries : List (String × List String)} {parent child : String} :
    (build (readings entries)).Edge parent child ↔
      ∃ entry ∈ entries, child = entry.1 ∧ parent ∈ entry.2 := by
  rw [Edge, build, mem_edges_foldl_add, edges_readings, List.mem_flatMap]
  refine (or_iff_right List.not_mem_nil).trans ?_
  refine exists_congr fun entry => and_congr_right fun _ => ?_
  rw [List.mem_map]
  constructor
  · rintro ⟨read, reads, same⟩
    obtain ⟨rfl, rfl⟩ := Prod.mk.inj same
    exact ⟨rfl, reads⟩
  · rintro ⟨rfl, reads⟩
    exact ⟨parent, reads, rfl⟩

/-- Adding the nodes first makes no difference. -/
theorem build_nodes_append_readings (entries : List (String × List String)) :
    build (entries.map (fun entry => .node entry.1) ++ readings entries) =
      build (readings entries) := by
  refine build_congr ?_ fun name => ?_
  · rw [List.filterMap_append, edges_map_node, List.nil_append]
  · rw [List.flatMap_append, List.mem_append, mem_names_readings]
    refine or_iff_right_of_imp fun listed => ?_
    obtain ⟨addition, added, named⟩ := List.mem_flatMap.mp listed
    obtain ⟨entry, member, rfl⟩ := List.mem_map.mp added
    exact ⟨entry, member, .inl (List.mem_singleton.mp named)⟩

/-- Neither does adding them last. -/
theorem build_edges_append_nodes (entries : List (String × List String)) :
    build ((entries.flatMap fun entry => entry.2.map (.edge · entry.1)) ++
      entries.map fun entry => .node entry.1) = build (readings entries) := by
  refine build_congr ?_ fun name => ?_
  · rw [List.filterMap_append, edges_map_node, List.append_nil, edges_readings,
      List.filterMap_flatMap]
    exact List.flatMap_congr fun entry _ => edges_map_edge entry.2 entry.1
  · rw [mem_names_readings]
    simp only [List.flatMap_append, List.mem_append, List.mem_flatMap, List.mem_map]
    constructor
    · rintro (⟨_, ⟨entry, member, parent, listed, rfl⟩, named⟩ | ⟨_, ⟨entry, member, rfl⟩, named⟩)
      · rcases List.mem_cons.mp named with rfl | last
        · exact ⟨entry, member, .inr listed⟩
        · exact ⟨entry, member, .inl (List.mem_singleton.mp last)⟩
      · exact ⟨entry, member, .inl (List.mem_singleton.mp named)⟩
    · rintro ⟨entry, member, rfl | listed⟩
      · exact .inr ⟨_, ⟨entry, member, rfl⟩, List.mem_singleton_self _⟩
      · exact .inl ⟨_, ⟨entry, member, name, listed, rfl⟩, List.mem_cons_self⟩

end Graph
end SqlPipeline
