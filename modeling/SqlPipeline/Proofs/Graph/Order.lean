import Mathlib.Data.List.Nodup
import SqlPipeline.Graph.Order
import SqlPipeline.Proofs.Graph.Contraction

/-!
# Sorting exactly the graphs without cycles

While a sort is in progress, every node waits for exactly its parents that have not been placed.  So
no count falls below zero, nodes are placed after all their parents, and the sort gets stuck only at
nodes that wait for each other: it places every node of a graph if and only if the graph has no
cycle.
-/

namespace SqlPipeline
namespace Graph

variable {graph : Graph} {names : List String} {name parent : String}

/-- A parent of a node determines the edge from it. -/
theorem edge_of_parent {name parent : String} {first second : String × String}
    (held : parent ∈ if first.2 = name then some first.1 else none)
    (found : parent ∈ if second.2 = name then some second.1 else none) : first = second := by
  simp only [Option.mem_def, Option.ite_none_right_eq_some, Option.some.injEq] at held found
  exact Prod.ext (held.2.trans found.2.symm) (held.1.trans found.1.symm)

/-- A child of a node determines the edge to it. -/
theorem edge_of_child {name child : String} {first second : String × String}
    (held : child ∈ if first.1 = name then some first.2 else none)
    (found : child ∈ if second.1 = name then some second.2 else none) : first = second := by
  simp only [Option.mem_def, Option.ite_none_right_eq_some, Option.some.injEq] at held found
  exact Prod.ext (held.1.trans found.1.symm) (held.2.trans found.2.symm)

theorem nodup_parents (graph : Graph) (name : String) : (graph.parents name).Nodup :=
  List.Nodup.filterMap (fun _ _ _ => edge_of_parent) graph.nodup

theorem nodup_children (graph : Graph) (name : String) : (graph.children name).Nodup :=
  List.Nodup.filterMap (fun _ _ _ => edge_of_child) graph.nodup

/-! ## Arrangements -/

/-- A list of nodes that places each of them once and after all its parents. -/
inductive Arranged (graph : Graph) : List String → Prop
  | nil : Arranged graph []
  | place {names : List String} {name : String} :
      Arranged graph names → name ∈ graph.nodes → name ∉ names → graph.parents name ⊆ names →
      Arranged graph (names ++ [name])

namespace Arranged

theorem nodup (arranged : graph.Arranged names) : names.Nodup := by
  induction arranged with
  | nil => exact List.nodup_nil
  | place _ _ absent _ ih =>
    refine ih.append (List.nodup_singleton _) fun other earlier last => absent ?_
    exact List.mem_singleton.mp last ▸ earlier

theorem subset_nodes (arranged : graph.Arranged names) : names ⊆ graph.nodes.toList := by
  induction arranged with
  | nil => exact List.nil_subset _
  | place _ member _ _ ih =>
    exact List.append_subset.mpr ⟨ih, List.cons_subset.mpr ⟨member, List.nil_subset _⟩⟩

theorem length_le (arranged : graph.Arranged names) : names.length ≤ graph.size :=
  (arranged.nodup.subperm arranged.subset_nodes).length_le

/-- An arrangement as long as there are nodes holds all of them. -/
theorem mem_of_length (arranged : graph.Arranged names) (full : graph.size ≤ names.length)
    (member : name ∈ graph.nodes) : name ∈ names := by
  have perm := (arranged.nodup.subperm arranged.subset_nodes).perm_of_length_le full
  exact perm.mem_iff.mpr member

theorem parents_subset (arranged : graph.Arranged names) (member : name ∈ names) :
    graph.parents name ⊆ names := by
  induction arranged with
  | nil => cases member
  | place _ _ _ parents ih =>
    refine List.Subset.trans ?_ (List.subset_append_left _ _)
    rcases List.mem_append.mp member with earlier | last
    · exact ih earlier
    · exact List.mem_singleton.mp last ▸ parents

theorem mem_of_precedes (arranged : graph.Arranged names) (member : name ∈ names)
    (path : graph.Precedes parent name) : parent ∈ names := by
  induction path with
  | single edge => exact arranged.parents_subset member (mem_parents.mpr edge)
  | tail _ edge ih => exact ih (arranged.parents_subset member (mem_parents.mpr edge))

/-- No node of an arrangement precedes itself: it would have been placed before. -/
theorem not_precedes_self (arranged : graph.Arranged names) (member : name ∈ names) :
    ¬ graph.Precedes name name := by
  induction arranged with
  | nil => cases member
  | @place names last arranged _ absent parents ih =>
    rcases List.mem_append.mp member with earlier | final
    · exact ih earlier
    · obtain rfl := List.mem_singleton.mp final
      intro path
      refine absent ?_
      obtain ⟨middle, path, edge⟩ := Relation.TransGen.tail'_iff.mp path
      have inside : middle ∈ names := parents (mem_parents.mpr edge)
      rcases Relation.reflTransGen_iff_eq_or_transGen.mp path with rfl | path
      · exact inside
      · exact arranged.mem_of_precedes inside path

theorem acyclic (arranged : graph.Arranged names) (full : graph.size ≤ names.length) :
    graph.Acyclic := by
  intro name path
  exact arranged.not_precedes_self (arranged.mem_of_length full path.mem_nodes.1) path

end Arranged
end Graph

namespace Sorting

variable {graph : Graph} {sorting before after : Sorting} {names : List String} {name : String}

/-! ## Releasing children -/

/-- The nodes of a list wait for one parent less, and those that waited for one become ready. -/
structure Released (names : List String) (before after : Sorting) : Prop where
  waiting : ∀ name, after.waiting.get? name =
    if name ∈ names then (before.waiting.get? name).map (· - 1) else before.waiting.get? name
  ready : ∀ name, name ∈ after.ready ↔
    name ∈ before.ready ∨ name ∈ names ∧ before.waiting.get? name = some 1
  placed : after.placed = before.placed

theorem Released.nil (sorting : Sorting) : Released [] sorting sorting :=
  ⟨by simp, by simp, rfl⟩

theorem Released.cons_of_absent (absent : before.waiting.get? name = none)
    (released : Released names before after) : Released (name :: names) before after := by
  refine ⟨fun other => ?_, fun other => ?_, released.placed⟩
  · rw [released.waiting other]
    by_cases same : other = name
    · simp [same, absent]
    · simp [same]
  · rw [released.ready other]
    by_cases same : other = name
    · simp [same, absent]
    · simp [same]

/-- The sort when a node that waits for some parents waits for one less. -/
def releaseNode (sorting : Sorting) (name : String) (rest : Nat) : Sorting :=
  { sorting with
    waiting := sorting.waiting.insert name rest
    ready := if rest = 0 then sorting.ready.insert name else sorting.ready }

theorem Released.cons_of_waiting {rest : Nat} (absent : name ∉ names)
    (found : before.waiting.get? name = some (rest + 1))
    (released : Released names (before.releaseNode name rest) after) :
    Released (name :: names) before after := by
  have waiting : ∀ other, (before.releaseNode name rest).waiting.get? other =
      if other = name then some rest else before.waiting.get? other :=
    fun other => NameMap.get?_insert _ _ _ _
  have ready : ∀ other, other ∈ (before.releaseNode name rest).ready ↔
      other ∈ before.ready ∨ other = name ∧ rest = 0 := by
    intro other
    unfold releaseNode
    split
    next zero => rw [NameSet.mem_insert]; simp [zero, or_comm]
    next more => simp [more]
  refine ⟨fun other => ?_, fun other => ?_, released.placed⟩
  · rw [released.waiting other, waiting other]
    by_cases same : other = name
    · subst same
      simp [absent, found]
    · simp [same]
  · rw [released.ready other, ready other, waiting other]
    by_cases same : other = name
    · subst same
      simp [absent, found]
    · simp [same]

/-- Releasing succeeds when every node of the list that is counted waits for some parent. -/
theorem exists_released (sorting : Sorting) (nodup : names.Nodup)
    (waits : ∀ name ∈ names, sorting.waiting.get? name ≠ some 0) :
    ∃ after, names.foldlM release? sorting = some after ∧ Released names sorting after := by
  induction names generalizing sorting with
  | nil => exact ⟨sorting, rfl, .nil sorting⟩
  | cons name names ih =>
    obtain ⟨absent, rest⟩ := List.nodup_cons.mp nodup
    have later := fun other member => waits other (List.mem_cons_of_mem name member)
    rw [List.foldlM_cons]
    cases found : sorting.waiting.get? name with
    | none =>
      obtain ⟨after, run, released⟩ := ih sorting rest later
      exact ⟨after, by simpa [release?, found] using run, released.cons_of_absent found⟩
    | some degree =>
      cases degree with
      | zero => exact absurd found (waits name List.mem_cons_self)
      | succ degree =>
        obtain ⟨after, run, released⟩ := ih (sorting.releaseNode name degree) rest (by
          intro other member
          have different : other ≠ name := fun same => absent (same ▸ member)
          rw [releaseNode, NameMap.get?_insert_of_ne _ _ different]
          exact later other member)
        have stepped : sorting.release? name = some (sorting.releaseNode name degree) := by
          simp [release?, releaseNode, found]
        exact ⟨after, by simpa [stepped] using run, released.cons_of_waiting absent found⟩

/-! ## The books of a sort -/

/-- The parents of a node that have not been placed. -/
def missing (sorting : Sorting) (graph : Graph) (name : String) : Finset String :=
  (graph.parents name).toFinset \ sorting.placed.toFinset

/-- What the parts of a sort say about each other and about the graph. -/
structure Tracks (sorting : Sorting) (graph : Graph) : Prop where
  waiting : ∀ name, sorting.waiting.get? name =
    if name ∈ graph.nodes then some (sorting.missing graph name).card else none
  ready : ∀ name, name ∈ sorting.ready ↔
    name ∈ graph.nodes ∧ name ∉ sorting.placed ∧ graph.parents name ⊆ sorting.placed
  arranged : graph.Arranged sorting.placed

theorem mem_missing {parent : String} :
    parent ∈ sorting.missing graph name ↔ graph.Edge parent name ∧ parent ∉ sorting.placed := by
  simp [missing, Graph.Edge]

theorem missing_eq_empty_iff :
    sorting.missing graph name = ∅ ↔ graph.parents name ⊆ sorting.placed := by
  rw [missing, Finset.sdiff_eq_empty_iff_subset]
  simp [Finset.subset_iff, List.subset_def]

theorem missing_place (placed : after.placed = before.placed ++ [name]) (child : String) :
    after.missing graph child = (before.missing graph child).erase name := by
  ext parent
  rw [Finset.mem_erase, mem_missing, mem_missing, placed]
  simp only [List.mem_append, List.mem_singleton, not_or]
  tauto

theorem tracks_start (graph : Graph) : (start graph).Tracks graph where
  waiting name := by
    have card : ((start graph).missing graph name).card = (graph.parents name).length := by
      simp [missing, start, List.toFinset_card_of_nodup (graph.nodup_parents name)]
    rw [card]
    simp [start, NameMap.get?_ofList_map]
  ready name := by
    simp [start, List.isEmpty_iff, List.subset_nil]
  arranged := .nil

theorem Tracks.not_mem_placed {child : String} (tracks : sorting.Tracks graph)
    (waits : name ∈ sorting.missing graph child) : child ∉ sorting.placed := by
  obtain ⟨edge, absent⟩ := mem_missing.mp waits
  exact fun placed => absent (tracks.arranged.parents_subset placed (Graph.mem_parents.mpr edge))

/-- What waits for one node only waits for none once that node is placed. -/
theorem erase_missing_eq_empty_iff {child : String} (waits : name ∈ sorting.missing graph child) :
    (sorting.missing graph child).erase name = ∅ ↔ (sorting.missing graph child).card = 1 := by
  have positive := Finset.card_pos.mpr ⟨name, waits⟩
  rw [← Finset.card_eq_zero, Finset.card_erase_of_mem waits]
  omega

/-- The children of a node that is placed wait for one parent less than before. -/
theorem Tracks.card_missing_place (tracks : before.Tracks graph) (absent : name ∉ before.placed)
    (placed : after.placed = before.placed ++ [name]) (child : String) :
    (if child ∈ graph.nodes then some (after.missing graph child).card else none) =
      if child ∈ graph.children name then (before.waiting.get? child).map (· - 1)
      else before.waiting.get? child := by
  rw [missing_place placed, tracks.waiting child]
  by_cases neighbour : child ∈ graph.children name
  · have edge : graph.Edge name child := Graph.mem_children.mp neighbour
    rw [if_pos neighbour, if_pos edge.mem_nodes.2, if_pos edge.mem_nodes.2,
      Finset.card_erase_of_mem (mem_missing.mpr ⟨edge, absent⟩)]
    rfl
  · have apart : name ∉ before.missing graph child := fun waits =>
      neighbour (Graph.mem_children.mpr (mem_missing.mp waits).1)
    rw [if_neg neighbour, Finset.erase_eq_of_notMem apart]

/-- Placing a node readies those of its children that waited for nothing else. -/
theorem Tracks.ready_place (tracks : before.Tracks graph) (member : name ∈ before.ready)
    (placed : after.placed = before.placed ++ [name]) (other : String) :
    (other ∈ graph.nodes ∧ other ∉ after.placed ∧ graph.parents other ⊆ after.placed) ↔
      (other ∈ before.ready ∧ other ≠ name) ∨
        other ∈ graph.children name ∧ before.waiting.get? other = some 1 := by
  obtain ⟨-, absent, parents⟩ := (tracks.ready name).mp member
  rw [tracks.ready other, tracks.waiting other, ← missing_eq_empty_iff, ← missing_eq_empty_iff,
    missing_place placed, placed]
  simp only [List.mem_append, List.mem_singleton, not_or]
  by_cases child : other ∈ graph.children name
  · have edge : graph.Edge name other := Graph.mem_children.mp child
    have waits : name ∈ before.missing graph other := mem_missing.mpr ⟨edge, absent⟩
    have different : other ≠ name := by
      rintro rfl
      exact absent (parents (Graph.mem_parents.mpr edge))
    simp [child, edge.mem_nodes.2, tracks.not_mem_placed waits, different,
      erase_missing_eq_empty_iff waits, Finset.ne_empty_of_mem waits]
  · have apart : name ∉ before.missing graph other := fun waits =>
      child (Graph.mem_children.mpr (mem_missing.mp waits).1)
    simp only [child, false_and, or_false, Finset.erase_eq_of_notMem apart]
    tauto

/-- A node that is placed is no longer waited for, and the books stay right. -/
theorem Tracks.placed (tracks : before.Tracks graph) (member : name ∈ before.ready)
    {ready : NameSet} (others : ∀ other, other ∈ ready ↔ other ∈ before.ready ∧ other ≠ name)
    (released : Released (graph.children name)
      { before with ready, placed := before.placed ++ [name] } after) : after.Tracks graph := by
  obtain ⟨inside, absent, parents⟩ := (tracks.ready name).mp member
  refine ⟨fun other => ?_, fun other => ?_, ?_⟩
  · rw [released.waiting other]
    exact (tracks.card_missing_place absent released.placed other).symm
  · rw [released.ready other, others other]
    exact (tracks.ready_place member released.placed other).symm
  · rw [released.placed]
    exact .place tracks.arranged inside absent parents

/-- Placing a ready node succeeds. -/
theorem Tracks.exists_placed (tracks : sorting.Tracks graph) {ready : NameSet}
    (popped : sorting.ready.popLeast? = some (name, ready)) :
    ∃ after, (graph.children name).foldlM release?
        { sorting with ready, placed := sorting.placed ++ [name] } = some after ∧
      after.placed = sorting.placed ++ [name] ∧ after.Tracks graph := by
  obtain ⟨member, -, others⟩ := NameSet.popLeast?_eq_some popped
  obtain ⟨after, run, released⟩ := exists_released
    { sorting with ready, placed := sorting.placed ++ [name] } (graph.nodup_children name) (by
      intro child neighbour none
      have edge : graph.Edge name child := Graph.mem_children.mp neighbour
      have absent := ((tracks.ready name).mp member).2.1
      rw [tracks.waiting child, if_pos edge.mem_nodes.2, Option.some.injEq,
        Finset.card_eq_zero] at none
      exact absurd (mem_missing.mpr ⟨edge, absent⟩) (none ▸ Finset.notMem_empty name))
  exact ⟨after, run, released.placed, tracks.placed member others released⟩

/-- A sort goes on until no node is ready, unless it has placed as many nodes as it may. -/
theorem Tracks.exists_run (tracks : sorting.Tracks graph) (fuel : Nat) :
    ∃ last, run? graph fuel sorting = some last ∧ last.Tracks graph ∧
      ((∀ name, name ∉ last.ready) ∨ sorting.placed.length + fuel ≤ last.placed.length) := by
  induction fuel generalizing sorting with
  | zero => exact ⟨sorting, rfl, tracks, .inr (Nat.le_refl _)⟩
  | succ fuel ih =>
    cases popped : sorting.ready.popLeast? with
    | none =>
      have empty := NameSet.popLeast?_eq_none_iff.mp popped
      exact ⟨sorting, by rw [run?, popped], tracks, .inl empty⟩
    | some entry =>
      obtain ⟨name, ready⟩ := entry
      obtain ⟨after, placed, one, tracks⟩ := tracks.exists_placed popped
      obtain ⟨last, run, tracks, ends⟩ := ih tracks
      refine ⟨last, ?_, tracks, ends.imp_right fun enough => ?_⟩
      · rw [run?, popped]
        simpa [placed] using run
      · rw [one, List.length_append, List.length_singleton] at enough
        omega

end Sorting

namespace Graph

variable {graph : Graph}

/-- The sort never fails, and it places every node whose parents it places. -/
theorem exists_placedOrder (graph : Graph) :
    ∃ placed, graph.placedOrder? = some placed ∧ graph.Arranged placed ∧
      ∀ name ∈ graph.nodes, graph.parents name ⊆ placed → name ∈ placed := by
  obtain ⟨last, run, tracks, ends⟩ := (Sorting.tracks_start graph).exists_run graph.size
  refine ⟨last.placed, by rw [placedOrder?, run]; rfl, tracks.arranged, ?_⟩
  intro name member parents
  rcases ends with empty | enough
  · by_contra absent
    exact empty name ((tracks.ready name).mpr ⟨member, absent, parents⟩)
  · refine tracks.arranged.mem_of_length ?_ member
    simpa [Sorting.start] using enough

/-- There is a topological order exactly when no node precedes itself. -/
theorem isSome_topologicalSort?_iff : graph.topologicalSort?.isSome = true ↔ graph.Acyclic := by
  obtain ⟨placed, run, arranged, complete⟩ := graph.exists_placedOrder
  have full : graph.topologicalSort?.isSome = true ↔ placed.length = graph.size := by
    simp [topologicalSort?, run, Option.filter]
  rw [full]
  constructor
  · intro same
    exact arranged.acyclic same.ge
  · intro acyclic
    have all : ∀ name, name ∈ graph.nodes → name ∈ placed := by
      intro name
      induction name using acyclic.induction with
      | _ name ih =>
        intro member
        refine complete name member fun parent listed => ?_
        have edge : graph.Edge parent name := mem_parents.mp listed
        exact ih parent (.single edge) edge.mem_nodes.1
    exact Nat.le_antisymm arranged.length_le
      ((NameSet.nodup_toList graph.nodes).subperm all).length_le

end Graph
end SqlPipeline
