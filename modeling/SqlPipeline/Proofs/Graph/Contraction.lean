import Mathlib.Data.Fintype.Card
import Mathlib.Data.Fintype.EquivFin
import Mathlib.Data.Fintype.Sets
import SqlPipeline.Proofs.Graph.Walk
import SqlPipeline.Schedule.Queue

/-!
# Looking through unselected nodes

A selected node waits for its nearest selected parents only.  They are the selected nodes from which
a path leads to it whose inner nodes are all unselected.  Contracting a graph to these pairs keeps
reachability from selected nodes exactly, whatever the selection leaves out.
-/

namespace SqlPipeline
namespace Graph

/-- An edge leads from a parent to a child. -/
def Edge (graph : Graph) (parent child : String) : Prop := (parent, child) ∈ graph.edges

instance (graph : Graph) (parent child : String) : Decidable (graph.Edge parent child) :=
  inferInstanceAs (Decidable ((parent, child) ∈ graph.edges))

/-- A path of at least one edge leads from the first node to the second one. -/
def Precedes (graph : Graph) : String → String → Prop := Relation.TransGen graph.Edge

/-- No node precedes itself. -/
def Acyclic (graph : Graph) : Prop := ∀ name, ¬ graph.Precedes name name

/-- A path of at least one edge whose inner nodes are all unselected. -/
inductive Through (graph : Graph) (selected : NameSet) : String → String → Prop
  | edge {parent child : String} : graph.Edge parent child → Through graph selected parent child
  | hidden {parent middle child : String} :
      graph.Edge parent middle → middle ∉ selected → Through graph selected middle child →
      Through graph selected parent child

/-- The first node is one of the nearest selected parents of the second one. -/
def Feeds (graph : Graph) (selected : NameSet) (parent child : String) : Prop :=
  parent ∈ graph.nearestSelectedParents selected child

variable {graph : Graph} {selected : NameSet} {parent child source target : String}

theorem Edge.mem_nodes (edge : graph.Edge parent child) :
    parent ∈ graph.nodes ∧ child ∈ graph.nodes :=
  graph.ends_mem _ edge

theorem children_subset_nodes (graph : Graph) (name : String) :
    graph.children name ⊆ graph.nodes.toList := fun _ member =>
  have edge : graph.Edge name _ := mem_children.mp member
  edge.mem_nodes.2

theorem parents_subset_nodes (graph : Graph) (name : String) :
    graph.parents name ⊆ graph.nodes.toList := fun _ member =>
  have edge : graph.Edge _ name := mem_parents.mp member
  edge.mem_nodes.1

theorem Through.mem_nodes (path : graph.Through selected parent child) :
    parent ∈ graph.nodes ∧ child ∈ graph.nodes := by
  induction path with
  | edge edge => exact edge.mem_nodes
  | hidden edge _ _ ih => exact ⟨edge.mem_nodes.1, ih.2⟩

theorem Through.precedes (path : graph.Through selected parent child) :
    graph.Precedes parent child := by
  induction path with
  | edge edge => exact .single edge
  | hidden edge _ _ ih => exact .head edge ih

theorem Precedes.mem_nodes (path : graph.Precedes source target) :
    source ∈ graph.nodes ∧ target ∈ graph.nodes := by
  induction path with
  | single edge => exact edge.mem_nodes
  | tail _ edge ih => exact ⟨ih.1, edge.mem_nodes.2⟩

/-- On an acyclic graph, what a node inherits from all nodes before it holds of every node. -/
theorem Acyclic.induction (acyclic : graph.Acyclic) {motive : String → Prop}
    (step : ∀ name, (∀ parent, graph.Precedes parent name → motive parent) → motive name)
    (name : String) : motive name := by
  -- Only the nodes of the graph have nodes before them, and there are finitely many.
  let earlier : {name // name ∈ graph.nodes.toList} → {name // name ∈ graph.nodes.toList} → Prop :=
    fun first second => graph.Precedes first second
  have : IsTrans _ earlier := ⟨fun _ _ _ first second => first.trans second⟩
  have : Std.Irrefl earlier := ⟨fun name path => acyclic name path⟩
  have wellFounded : WellFounded earlier := Finite.wellFounded_of_trans_of_irrefl earlier
  have inside : ∀ name : {name // name ∈ graph.nodes.toList}, motive name := by
    intro name
    induction name using wellFounded.induction with
    | _ name ih =>
      exact step name fun parent path => ih ⟨parent, path.mem_nodes.1⟩ path
  exact step name fun parent path => inside ⟨parent, path.mem_nodes.1⟩

/-- A graph is acyclic when its edges ascend in some rank. -/
theorem acyclic_of_rank (rank : String → Nat)
    (ascends : ∀ edge ∈ graph.edges, rank edge.1 < rank edge.2) : graph.Acyclic := by
  intro name path
  have rises : ∀ source target, graph.Precedes source target → rank source < rank target := by
    intro source target path
    induction path with
    | single edge => exact ascends _ edge
    | tail _ edge ih => exact ih.trans (ascends _ edge)
  exact Nat.lt_irrefl _ (rises name name path)

/-- Going back from a node over unselected nodes follows the paths whose inner nodes are
unselected. -/
theorem exists_back_iff_through :
    (∃ start ∈ graph.parents child, Relation.ReflTransGen
        (fun source target => target ∈ if source ∈ selected then [] else graph.parents source)
        start parent) ↔
      graph.Through selected parent child := by
  constructor
  · rintro ⟨start, member, path⟩
    induction path with
    | refl => exact .edge (mem_parents.mp member)
    | @tail middle target _ step ih =>
      split at step
      · cases step
      next unselected => exact .hidden (mem_parents.mp step) unselected ih
  · intro path
    induction path with
    | edge edge => exact ⟨_, mem_parents.mpr edge, .refl⟩
    | @hidden parent middle child edge unselected _ ih =>
      obtain ⟨start, member, path⟩ := ih
      refine ⟨start, member, path.tail ?_⟩
      rw [if_neg unselected]
      exact mem_parents.mpr edge

theorem feeds_iff :
    graph.Feeds selected parent child ↔
      parent ∈ selected ∧ graph.Through selected parent child := by
  have closed : ∀ name ∈ graph.nodes.toList,
      (if name ∈ selected then [] else graph.parents name) ⊆ graph.nodes.toList := by
    intro name _
    split
    · exact List.nil_subset _
    · exact graph.parents_subset_nodes name
  have enough : graph.nodes.toList.length < graph.size + 1 := Nat.lt_succ_self _
  rw [Feeds, nearestSelectedParents, NameSet.mem_filter, List.contains_iff_mem, walk,
    Walk.mem_levels_iff (graph.parents_subset_nodes child) closed enough, exists_back_iff_through]

theorem Feeds.mem_selected (feeds : graph.Feeds selected parent child) : parent ∈ selected :=
  (feeds_iff.mp feeds).1

theorem Feeds.mem_nodes (feeds : graph.Feeds selected parent child) :
    parent ∈ graph.nodes ∧ child ∈ graph.nodes :=
  (feeds_iff.mp feeds).2.mem_nodes

/-- A path from any node ends without a selected node in between, or passes through a first one. -/
theorem Precedes.through_or (selected : NameSet) (path : graph.Precedes source target) :
    graph.Through selected source target ∨
      ∃ first ∈ selected, graph.Through selected source first ∧
        Relation.TransGen (graph.Feeds selected) first target := by
  induction path using Relation.TransGen.head_induction_on with
  | single edge => exact .inl (.edge edge)
  | @head source middle edge _ ih =>
    by_cases member : middle ∈ selected
    · refine .inr ⟨middle, member, .edge edge, ?_⟩
      rcases ih with direct | ⟨first, chosen, direct, later⟩
      · exact .single (feeds_iff.mpr ⟨member, direct⟩)
      · exact .head (feeds_iff.mpr ⟨member, direct⟩) later
    · rcases ih with direct | ⟨first, chosen, direct, later⟩
      · exact .inl (.hidden edge member direct)
      · exact .inr ⟨first, chosen, .hidden edge member direct, later⟩

/-- From a selected node, the contracted graph reaches what the whole graph reaches. -/
theorem transGen_feeds_iff (member : source ∈ selected) :
    Relation.TransGen (graph.Feeds selected) source target ↔ graph.Precedes source target := by
  constructor
  · intro path
    induction path with
    | single feeds => exact (feeds_iff.mp feeds).2.precedes
    | tail _ feeds ih => exact ih.trans (feeds_iff.mp feeds).2.precedes
  · intro path
    rcases path.through_or selected with direct | ⟨first, chosen, direct, later⟩
    · exact .single (feeds_iff.mpr ⟨member, direct⟩)
    · exact .head (feeds_iff.mpr ⟨member, direct⟩) later

end Graph
end SqlPipeline
