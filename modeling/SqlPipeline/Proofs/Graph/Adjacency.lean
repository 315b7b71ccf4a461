import SqlPipeline.Proofs.Graph.Order
import SqlPipeline.Proofs.Model.Building

/-!
# Graphs as tables of neighbours

A graph can also be kept as two tables, one of parents and one of children.  Whether an edge is
there is looked up among the parents alone, and the edge is then written into both tables.  This is
enough: after any additions the tables list the neighbours of the graph, so each mirrors the other.
-/

namespace SqlPipeline

/-- The nodes of a graph, with a list of parents and a list of children for each of them. -/
structure Adjacency where
  nodes : NameSet
  parents : NameMap (List String)
  children : NameMap (List String)

namespace Adjacency

/-- The tables of the graph without nodes. -/
def empty : Adjacency := ⟨.empty, .empty, .empty⟩

/-- The nodes that a node depends on directly. -/
def parentsOf (tables : Adjacency) (name : String) : List String :=
  (tables.parents.get? name).getD []

/-- The nodes that depend on a node directly. -/
def childrenOf (tables : Adjacency) (name : String) : List String :=
  (tables.children.get? name).getD []

/-- Add a node. -/
def addNode (tables : Adjacency) (name : String) : Adjacency :=
  { tables with nodes := tables.nodes.insert name }

/-- Add both nodes and, unless the parent is listed for the child, list each for the other. -/
def addEdge (tables : Adjacency) (parent child : String) : Adjacency :=
  let tables := (tables.addNode parent).addNode child
  if parent ∈ tables.parentsOf child then tables
  else
    { tables with
      parents := tables.parents.insert child (tables.parentsOf child ++ [parent])
      children := tables.children.insert parent (tables.childrenOf parent ++ [child]) }

/-- Add to the tables. -/
def add (tables : Adjacency) : Graph.Addition → Adjacency
  | .node name => tables.addNode name
  | .edge parent child => tables.addEdge parent child

/-- The tables of what is added to the empty ones. -/
def build (additions : List Graph.Addition) : Adjacency := additions.foldl add empty

/-- Tables list the nodes and the neighbours of a graph. -/
structure Represents (tables : Adjacency) (graph : Graph) : Prop where
  nodes : tables.nodes = graph.nodes
  parents : ∀ name, tables.parentsOf name = graph.parents name
  children : ∀ name, tables.childrenOf name = graph.children name

end Adjacency

/-! ## The neighbours in a graph that is built up -/

/-- Where a result determines its item, results are added once just if items are. -/
theorem ModelCalls.filterMap_foldl_addNew {α β : Type} [DecidableEq α] [DecidableEq β]
    {f : α → Option β} (determined : ∀ item other result, result ∈ f item → result ∈ f other →
      item = other) (items start : List α) :
    (items.foldl addNew start).filterMap f =
      (items.filterMap f).foldl addNew (start.filterMap f) := by
  induction items generalizing start with
  | nil => rfl
  | cons item items ih =>
    rw [List.foldl_cons, ih]
    cases found : f item with
    | none =>
      rw [List.filterMap_cons_none found, addNew]
      split
      · rfl
      · rw [List.filterMap_append, List.filterMap_cons_none found, List.filterMap_nil,
          List.append_nil]
    | some result =>
      have listed : item ∈ start ↔ result ∈ start.filterMap f := by
        rw [List.mem_filterMap]
        constructor
        · intro member
          exact ⟨item, member, found⟩
        · rintro ⟨other, member, same⟩
          rwa [determined item other result found same]
      have step : (addNew start item).filterMap f = addNew (start.filterMap f) result := by
        simp only [addNew, listed]
        split
        · rfl
        · rw [List.filterMap_append, List.filterMap_cons_some found, List.filterMap_nil]
      rw [List.filterMap_cons_some found, List.foldl_cons, step]

namespace Graph

/-- The parent of a node that an addition adds. -/
def Addition.parentOf? (name : String) : Addition → Option String
  | node _ => none
  | edge parent child => if child = name then some parent else none

/-- The child of a node that an addition adds. -/
def Addition.childOf? (name : String) : Addition → Option String
  | node _ => none
  | edge parent child => if parent = name then some child else none

/-- Lists of parents and of children say what was added, each on its own side of an edge. -/
structure Lists (additions : List Addition) (nodes : NameSet)
    (parents children : String → List String) : Prop where
  mirror : ∀ parent child, child ∈ children parent ↔ parent ∈ parents child
  added : ∀ parent child, parent ∈ parents child ↔ .edge parent child ∈ additions
  ends_mem : ∀ parent child, parent ∈ parents child → parent ∈ nodes ∧ child ∈ nodes
  nodup_parents : ∀ name, (parents name).Nodup
  nodup_children : ∀ name, (children name).Nodup
  /-- Parents come in the order in which they were first added. -/
  parents_order : ∀ name,
    parents name = (additions.filterMap (Addition.parentOf? name)).eraseDups
  /-- So do children. -/
  children_order : ∀ name,
    children name = (additions.filterMap (Addition.childOf? name)).eraseDups

variable {graph : Graph} {additions : List Addition} {addition : Addition}
  {name parent child : String}

theorem parents_foldl_add (graph : Graph) (additions : List Addition) (name : String) :
    (additions.foldl add graph).parents name =
      (additions.filterMap (Addition.parentOf? name)).foldl ModelCalls.addNew
        (graph.parents name) := by
  have each : Addition.parentOf? name = fun addition =>
      addition.edge?.bind fun edge => if edge.2 = name then some edge.1 else none := by
    funext addition
    cases addition <;> rfl
  rw [parents, edges_foldl_add, ModelCalls.filterMap_foldl_addNew fun _ _ _ => edge_of_parent,
    List.filterMap_filterMap, each]
  rfl

theorem children_foldl_add (graph : Graph) (additions : List Addition) (name : String) :
    (additions.foldl add graph).children name =
      (additions.filterMap (Addition.childOf? name)).foldl ModelCalls.addNew
        (graph.children name) := by
  have each : Addition.childOf? name = fun addition =>
      addition.edge?.bind fun edge => if edge.1 = name then some edge.2 else none := by
    funext addition
    cases addition <;> rfl
  rw [children, edges_foldl_add, ModelCalls.filterMap_foldl_addNew fun _ _ _ => edge_of_child,
    List.filterMap_filterMap, each]
  rfl

theorem parents_addEdge (graph : Graph) (parent child name : String) :
    (graph.addEdge parent child).parents name =
      if name = child then ModelCalls.addNew (graph.parents name) parent
      else graph.parents name := by
  refine (parents_foldl_add graph [.edge parent child] name).trans ?_
  by_cases here : child = name
  · simp [Addition.parentOf?, here]
  · simp [Addition.parentOf?, here, Ne.symm here]

theorem children_addEdge (graph : Graph) (parent child name : String) :
    (graph.addEdge parent child).children name =
      if name = parent then ModelCalls.addNew (graph.children name) child
      else graph.children name := by
  refine (children_foldl_add graph [.edge parent child] name).trans ?_
  by_cases here : parent = name
  · simp [Addition.childOf?, here]
  · simp [Addition.childOf?, here, Ne.symm here]

theorem edge_build_iff : (build additions).Edge parent child ↔ .edge parent child ∈ additions := by
  rw [Edge, build, mem_edges_foldl_add, List.mem_filterMap]
  refine (or_iff_right List.not_mem_nil).trans ?_
  constructor
  · rintro ⟨addition, added, same⟩
    cases addition with
    | node name => cases same
    | edge first second =>
      cases same
      exact added
  · intro added
    exact ⟨_, added, rfl⟩

theorem lists_build (additions : List Addition) :
    Lists additions (build additions).nodes (build additions).parents
      (build additions).children where
  mirror parent child := mem_children.trans mem_parents.symm
  added parent child := mem_parents.trans edge_build_iff
  ends_mem parent child listed := (build additions).ends_mem _ (mem_parents.mp listed)
  nodup_parents := (build additions).nodup_parents
  nodup_children := (build additions).nodup_children
  parents_order name := by
    rw [build, parents_foldl_add, ← ModelCalls.foldl_addNew]
    rfl
  children_order name := by
    rw [build, children_foldl_add, ← ModelCalls.foldl_addNew]
    rfl

/-- Adding what is there changes nothing. -/
theorem add_of_present (names : ∀ name ∈ addition.names, name ∈ graph.nodes)
    (edges : ∀ edge ∈ addition.edge?, edge ∈ graph.edges) : graph.add addition = graph := by
  apply eq_of_nodes_edges
  · refine NameSet.ext_mem fun name => ?_
    have afterwards : name ∈ ([addition].foldl add graph).nodes ↔ _ := mem_nodes_foldl_add graph
    rw [List.flatMap_singleton] at afterwards
    exact afterwards.trans (or_iff_left_of_imp (names name))
  · cases addition with
    | node name => exact edges_addNode graph name
    | edge parent child => exact (edges_addEdge graph parent child).trans (if_pos (edges _ rfl))

theorem add_of_mem (added : addition ∈ additions) :
    (build additions).add addition = build additions := by
  apply add_of_present
  · intro name named
    exact (mem_nodes_foldl_add empty).mpr (.inr (List.mem_flatMap.mpr ⟨addition, added, named⟩))
  · intro edge held
    exact (mem_edges_foldl_add empty).mpr (.inr (List.mem_filterMap.mpr ⟨addition, added, held⟩))

end Graph

/-! ## Tables that are built up -/

namespace Adjacency

variable {graph : Graph} {tables : Adjacency} {additions : List Graph.Addition}
  {addition : Graph.Addition} {name parent child : String}

theorem addNode_of_mem (member : name ∈ tables.nodes) : tables.addNode name = tables := by
  have same : tables.nodes.insert name = tables.nodes := by
    refine NameSet.ext_mem fun other => ?_
    rw [NameSet.mem_insert]
    exact or_iff_right_of_imp fun equal => equal ▸ member
  rw [addNode, same]

theorem nodes_addEdge (tables : Adjacency) (parent child : String) :
    (tables.addEdge parent child).nodes = (tables.nodes.insert parent).insert child := by
  rw [addEdge]
  split <;> rfl

theorem addEdge_of_mem (listed : parent ∈ tables.parentsOf child) :
    tables.addEdge parent child = (tables.addNode parent).addNode child :=
  if_pos listed

theorem addEdge_of_not_mem (absent : parent ∉ tables.parentsOf child) :
    tables.addEdge parent child =
      { nodes := (tables.nodes.insert parent).insert child
        parents := tables.parents.insert child (tables.parentsOf child ++ [parent])
        children := tables.children.insert parent (tables.childrenOf parent ++ [child]) } :=
  if_neg absent

theorem parentsOf_addEdge (tables : Adjacency) (parent child name : String) :
    (tables.addEdge parent child).parentsOf name =
      if name = child then ModelCalls.addNew (tables.parentsOf name) parent
      else tables.parentsOf name := by
  by_cases listed : parent ∈ tables.parentsOf child
  · rw [addEdge_of_mem listed]
    split
    next here =>
      rw [here, ModelCalls.addNew, if_pos listed]
      rfl
    next => rfl
  · rw [addEdge_of_not_mem listed, parentsOf, NameMap.get?_insert]
    split
    next here =>
      rw [here, ModelCalls.addNew, if_neg listed]
      rfl
    next => rfl

/-- The children are not looked at, so it takes the mirror to see that none is listed twice. -/
theorem childrenOf_addEdge
    (mirror : parent ∈ tables.parentsOf child ↔ child ∈ tables.childrenOf parent) (name : String) :
    (tables.addEdge parent child).childrenOf name =
      if name = parent then ModelCalls.addNew (tables.childrenOf name) child
      else tables.childrenOf name := by
  by_cases listed : parent ∈ tables.parentsOf child
  · rw [addEdge_of_mem listed]
    split
    next here =>
      rw [here, ModelCalls.addNew, if_pos (mirror.mp listed)]
      rfl
    next => rfl
  · rw [addEdge_of_not_mem listed, childrenOf, NameMap.get?_insert]
    split
    next here =>
      rw [here, ModelCalls.addNew, if_neg (mt mirror.mpr listed)]
      rfl
    next => rfl

theorem Represents.mirror (represents : tables.Represents graph) (parent child : String) :
    parent ∈ tables.parentsOf child ↔ child ∈ tables.childrenOf parent := by
  rw [represents.parents, represents.children, Graph.mem_parents, Graph.mem_children]

theorem Represents.added (represents : tables.Represents graph) (addition : Graph.Addition) :
    (tables.add addition).Represents (graph.add addition) := by
  cases addition with
  | node name =>
    exact ⟨congrArg (·.insert name) represents.nodes, represents.parents, represents.children⟩
  | edge parent child =>
    refine ⟨?_, fun name => ?_, fun name => ?_⟩
    · rw [add, nodes_addEdge, represents.nodes]
      rfl
    · rw [add, parentsOf_addEdge, represents.parents]
      exact (Graph.parents_addEdge graph parent child name).symm
    · rw [add, childrenOf_addEdge (represents.mirror parent child), represents.children]
      exact (Graph.children_addEdge graph parent child name).symm

theorem Represents.all_added (represents : tables.Represents graph)
    (additions : List Graph.Addition) :
    (additions.foldl add tables).Represents (additions.foldl Graph.add graph) := by
  induction additions generalizing tables graph with
  | nil => exact represents
  | cons addition additions ih => exact ih (represents.added addition)

theorem represents_build (additions : List Graph.Addition) :
    (build additions).Represents (Graph.build additions) :=
  Represents.all_added ⟨rfl, fun _ => rfl, fun _ => rfl⟩ additions

theorem add_of_mem (added : addition ∈ additions) :
    (build additions).add addition = build additions := by
  have represents := represents_build additions
  have present : ∀ name ∈ addition.names, name ∈ (build additions).nodes := by
    intro name named
    rw [represents.nodes, Graph.build, Graph.mem_nodes_foldl_add]
    exact .inr (List.mem_flatMap.mpr ⟨addition, added, named⟩)
  cases addition with
  | node name => exact addNode_of_mem (present name List.mem_cons_self)
  | edge parent child =>
    have listed : parent ∈ (build additions).parentsOf child := by
      rw [represents.parents, Graph.mem_parents]
      exact Graph.edge_build_iff.mpr added
    have second : child ∈ (build additions).nodes :=
      present child (List.mem_cons_of_mem parent List.mem_cons_self)
    rw [add, addEdge_of_mem listed, addNode_of_mem (present parent List.mem_cons_self),
      addNode_of_mem second]

end Adjacency

/-- Whatever is added to the empty graph, a node is a child of another one exactly if that is a
parent of it, which is so exactly if their edge was added.  Both ends of an edge are nodes, parents
and children are listed once each, in the order in which they were first added, and adding again
what was added changes nothing.  All of this holds as well of two tables of which only one is
consulted, and they list the same neighbours. -/
theorem Graph.neighbours_of_additions (additions : List Addition) :
    let graph := build additions
    let tables := Adjacency.build additions
    Lists additions graph.nodes graph.parents graph.children ∧
    Lists additions tables.nodes tables.parentsOf tables.childrenOf ∧
    tables.Represents graph ∧
    ∀ addition ∈ additions, graph.add addition = graph ∧ tables.add addition = tables := by
  intro graph tables
  have represents : tables.Represents graph := Adjacency.represents_build additions
  have same_parents : tables.parentsOf = graph.parents := funext represents.parents
  have same_children : tables.childrenOf = graph.children := funext represents.children
  refine ⟨lists_build additions, ?_, represents, fun addition added => ?_⟩
  · rw [represents.nodes, same_parents, same_children]
    exact lists_build additions
  · exact ⟨add_of_mem added, Adjacency.add_of_mem added⟩

end SqlPipeline
