import SqlPipeline.NameSet

/-!
# Dependency graphs

An edge leads from a parent to a child that depends on it. Edges are kept in the order in which
they were first added, which is the order in which parents and children are listed; nodes are
listed in ascending order.
-/

namespace SqlPipeline

/-- A directed graph on names. -/
structure Graph where
  nodes : NameSet
  /-- Pairs of a parent and a child, in order of first insertion. -/
  edges : List (String × String)
  /-- No edge is listed twice. -/
  nodup : edges.Nodup
  /-- Both ends of every edge are nodes. -/
  ends_mem : ∀ edge ∈ edges, edge.1 ∈ nodes ∧ edge.2 ∈ nodes
deriving DecidableEq

namespace Graph

/-- The graph without nodes. -/
def empty : Graph := ⟨.empty, [], List.nodup_nil, fun _ member => nomatch member⟩

instance : Inhabited Graph := ⟨empty⟩

/-- Add a node. -/
def addNode (graph : Graph) (name : String) : Graph where
  nodes := graph.nodes.insert name
  edges := graph.edges
  nodup := graph.nodup
  ends_mem edge member :=
    ⟨NameSet.mem_insert.mpr (.inr (graph.ends_mem edge member).1),
      NameSet.mem_insert.mpr (.inr (graph.ends_mem edge member).2)⟩

/-- Add both nodes, and an edge from the parent to the child unless it is there. -/
def addEdge (graph : Graph) (parent child : String) : Graph where
  nodes := (graph.nodes.insert parent).insert child
  edges := if (parent, child) ∈ graph.edges then graph.edges else graph.edges ++ [(parent, child)]
  nodup := by
    split
    · exact graph.nodup
    next absent =>
      refine List.nodup_append.mpr ⟨graph.nodup, by simp, fun edge member other single same => ?_⟩
      exact absent (List.mem_singleton.mp single ▸ same ▸ member)
  ends_mem edge member := by
    split at member
    · have ends := graph.ends_mem edge member
      simp [ends]
    · rcases List.mem_append.mp member with old | new
      · have ends := graph.ends_mem edge old
        simp [ends]
      · simp [List.mem_singleton.mp new]

/-- Whether a name is a node. -/
def contains (graph : Graph) (name : String) : Bool := graph.nodes.contains name

/-- The number of nodes. -/
def size (graph : Graph) : Nat := graph.nodes.size

/-- The nodes that a node depends on directly. -/
def parents (graph : Graph) (name : String) : List String :=
  graph.edges.filterMap fun edge => if edge.2 = name then some edge.1 else none

/-- The nodes that depend on a node directly. -/
def children (graph : Graph) (name : String) : List String :=
  graph.edges.filterMap fun edge => if edge.1 = name then some edge.2 else none

/-- The graph of a list of edges and then a list of nodes. -/
def ofLists (edges : List (String × String)) (nodes : List String) : Graph :=
  nodes.foldl addNode (edges.foldl (fun graph edge => graph.addEdge edge.1 edge.2) empty)

@[simp]
theorem contains_iff {graph : Graph} {name : String} :
    graph.contains name = true ↔ name ∈ graph.nodes :=
  NameSet.contains_iff

theorem mem_nodes_addNode {graph : Graph} {name other : String} :
    other ∈ (graph.addNode name).nodes ↔ other = name ∨ other ∈ graph.nodes :=
  NameSet.mem_insert

theorem edges_addNode (graph : Graph) (name : String) :
    (graph.addNode name).edges = graph.edges := rfl

theorem mem_nodes_addEdge {graph : Graph} {parent child other : String} :
    other ∈ (graph.addEdge parent child).nodes ↔
      other = child ∨ other = parent ∨ other ∈ graph.nodes := by
  rw [addEdge, NameSet.mem_insert, NameSet.mem_insert]

theorem mem_edges_addEdge {graph : Graph} {parent child : String} {edge : String × String} :
    edge ∈ (graph.addEdge parent child).edges ↔ edge ∈ graph.edges ∨ edge = (parent, child) := by
  rw [addEdge]
  dsimp only
  split
  next there =>
    refine ⟨.inl, fun member => member.elim id ?_⟩
    rintro rfl
    exact there
  next => rw [List.mem_append, List.mem_singleton]

@[simp]
theorem mem_parents {graph : Graph} {parent child : String} :
    parent ∈ graph.parents child ↔ (parent, child) ∈ graph.edges := by
  simp only [parents, List.mem_filterMap, Option.ite_none_right_eq_some, Option.some.injEq]
  exact ⟨fun ⟨edge, member, same, found⟩ => by rwa [← found, ← same],
    fun member => ⟨_, member, rfl, rfl⟩⟩

@[simp]
theorem mem_children {graph : Graph} {parent child : String} :
    child ∈ graph.children parent ↔ (parent, child) ∈ graph.edges := by
  simp only [children, List.mem_filterMap, Option.ite_none_right_eq_some, Option.some.injEq]
  exact ⟨fun ⟨edge, member, same, found⟩ => by rwa [← found, ← same],
    fun member => ⟨_, member, rfl, rfl⟩⟩

end Graph

end SqlPipeline
