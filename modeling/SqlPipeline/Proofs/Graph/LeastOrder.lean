import SqlPipeline.Proofs.Graph.Order

/-!
# The least order of some nodes

Of all the orders of some nodes in which no node stands after one that it precedes, one is the
least: it takes at every place the least node that may come next.  Any other order agrees with it up
to some place and has a greater node there.  The topological sort takes all nodes in this order.
-/

namespace SqlPipeline
namespace Graph

variable {graph : Graph} {chosen : NameSet} {names others : List String} {name other : String}

/-- A list of the chosen nodes, each of them once and after all chosen nodes that precede it,
through whichever nodes the paths lead. -/
structure IsOrder (graph : Graph) (chosen : NameSet) (names : List String) : Prop where
  perm : names.Perm chosen.toList
  ancestors : ∀ front name back, names = front ++ name :: back →
    ∀ ancestor ∈ chosen, graph.Precedes ancestor name → ancestor ∈ front

/-- The least order of the chosen nodes: any other one is greater, as lists of names are compared,
name by name. -/
structure IsLeastOrder (graph : Graph) (chosen : NameSet) (names : List String) : Prop where
  isOrder : graph.IsOrder chosen names
  lt_or_eq : ∀ others, graph.IsOrder chosen others → List.Lex (· < ·) names others ∨ names = others

theorem IsLeastOrder.eq (least : graph.IsLeastOrder chosen names)
    (minimal : graph.IsLeastOrder chosen others) : names = others := by
  rcases least.lt_or_eq others minimal.isOrder with less | same
  · rcases minimal.lt_or_eq names least.isOrder with greater | same
    · exact absurd greater (List.lt_asymm less)
    · exact same.symm
  · exact same

/-! ## Taking the least node that may come next -/

/-- A chosen node may come next when it has not been placed and all chosen nodes that precede it
have. -/
structure MayFollow (graph : Graph) (chosen : NameSet) (names : List String) (name : String) :
    Prop where
  member : name ∈ chosen
  absent : name ∉ names
  ancestors : ∀ ancestor ∈ chosen, graph.Precedes ancestor name → ancestor ∈ names

/-- A list of nodes each of which is the least that may come next. -/
inductive Greedy (graph : Graph) (chosen : NameSet) : List String → Prop
  | nil : Greedy graph chosen []
  | place {names : List String} {name : String} (greedy : Greedy graph chosen names)
      (next : graph.MayFollow chosen names name)
      (least : ∀ other, graph.MayFollow chosen names other → name ≤ other) :
      Greedy graph chosen (names ++ [name])

/-- The head of what is left of an order may come next. -/
theorem IsOrder.mayFollow (order : graph.IsOrder chosen (names ++ name :: others)) :
    graph.MayFollow chosen names name := by
  have nodup : (names ++ name :: others).Nodup := order.perm.nodup_iff.mpr chosen.nodup_toList
  refine ⟨order.perm.mem_iff.mp (by simp), fun earlier => ?_, order.ancestors _ _ _ rfl⟩
  exact (List.nodup_append.mp nodup).2.2 name earlier name List.mem_cons_self rfl

namespace Greedy

theorem subset (greedy : graph.Greedy chosen names) : names ⊆ chosen.toList := by
  induction greedy with
  | nil => exact List.nil_subset _
  | place _ next _ ih =>
    exact List.append_subset.mpr ⟨ih, List.cons_subset.mpr ⟨next.member, List.nil_subset _⟩⟩

theorem nodup (greedy : graph.Greedy chosen names) : names.Nodup := by
  induction greedy with
  | nil => exact List.nodup_nil
  | place _ next _ ih =>
    refine ih.append (List.nodup_singleton _) fun other earlier last => next.absent ?_
    exact List.mem_singleton.mp last ▸ earlier

theorem isOrder (greedy : graph.Greedy chosen names) (complete : chosen.toList ⊆ names) :
    graph.IsOrder chosen names where
  perm := (List.perm_ext_iff_of_nodup greedy.nodup chosen.nodup_toList).mpr fun _ =>
    ⟨fun listed => greedy.subset listed, fun member => complete member⟩
  ancestors := by
    clear complete
    induction greedy with
    | nil => simp
    | @place names last greedy next _ ih =>
      intro front name back split
      rcases List.eq_nil_or_concat back with rfl | ⟨back, final, rfl⟩
      · obtain ⟨rfl, same⟩ := List.append_inj' split rfl
        obtain rfl := List.singleton_inj.mp same
        exact next.ancestors
      · rw [List.concat_eq_append, ← List.cons_append, ← List.append_assoc] at split
        exact ih front name back (List.append_inj' split rfl).1

/-- Any order of the chosen nodes goes on from a greedy list, or it has a greater node at the first
place where they differ. -/
theorem prefix_or_lt (greedy : graph.Greedy chosen names)
    (order : graph.IsOrder chosen others) :
    names <+: others ∨ ∀ suffix, List.Lex (· < ·) (names ++ suffix) others := by
  induction greedy with
  | nil => exact .inl List.nil_prefix
  | @place names name greedy next least ih =>
    rcases ih with ⟨rest, rfl⟩ | less
    · cases rest with
      | nil =>
        have listed := order.perm.mem_iff.mpr next.member
        rw [List.append_nil] at listed
        exact absurd listed next.absent
      | cons head tail =>
        have below : name ≤ head := least head order.mayFollow
        by_cases same : name = head
        · subst same
          exact .inl ⟨tail, by rw [List.append_assoc, List.singleton_append]⟩
        · have less : name < head := String.not_le.mp fun above =>
            same (String.le_antisymm below above)
          refine .inr fun suffix => ?_
          rw [List.append_assoc]
          exact List.append_left_lt (List.cons_lt_cons_iff.mpr (.inl less))
    · refine .inr fun suffix => ?_
      rw [List.append_assoc]
      exact less _

/-- A greedy list of all chosen nodes is their least order. -/
theorem isLeastOrder (greedy : graph.Greedy chosen names) (complete : chosen.toList ⊆ names) :
    graph.IsLeastOrder chosen names := by
  have isOrder := greedy.isOrder complete
  refine ⟨isOrder, fun others order => ?_⟩
  rcases greedy.prefix_or_lt order with starts | less
  · exact .inr (starts.eq_of_length (isOrder.perm.trans order.perm.symm).length_eq)
  · have less := less []
    rw [List.append_nil] at less
    exact .inl less

end Greedy

/-! ## The topological sort -/

/-- After an arrangement, a node may come next when all its parents have been placed. -/
theorem Arranged.mayFollow_iff (arranged : graph.Arranged names) :
    graph.MayFollow graph.nodes names name ↔
      name ∈ graph.nodes ∧ name ∉ names ∧ graph.parents name ⊆ names := by
  constructor
  · intro next
    refine ⟨next.member, next.absent, fun parent listed => ?_⟩
    have edge : graph.Edge parent name := mem_parents.mp listed
    exact next.ancestors parent edge.mem_nodes.1 (.single edge)
  · rintro ⟨member, absent, parents⟩
    refine ⟨member, absent, fun ancestor _ path => ?_⟩
    obtain ⟨parent, path, edge⟩ := Relation.TransGen.tail'_iff.mp path
    have placed : parent ∈ names := parents (mem_parents.mpr edge)
    rcases Relation.reflTransGen_iff_eq_or_transGen.mp path with rfl | path
    · exact placed
    · exact arranged.mem_of_precedes placed path

end Graph

namespace Sorting

variable {graph : Graph} {sorting last : Sorting}

/-- A sort places nodes greedily. -/
theorem Tracks.greedy_run (tracks : sorting.Tracks graph)
    (greedy : graph.Greedy graph.nodes sorting.placed) {fuel : Nat}
    (run : run? graph fuel sorting = some last) : graph.Greedy graph.nodes last.placed := by
  induction fuel generalizing sorting with
  | zero =>
    cases run
    exact greedy
  | succ fuel ih =>
    cases popped : sorting.ready.popLeast? with
    | none =>
      rw [run?, popped] at run
      cases run
      exact greedy
    | some entry =>
      obtain ⟨name, ready⟩ := entry
      obtain ⟨member, least, -⟩ := NameSet.popLeast?_eq_some popped
      obtain ⟨after, placed, one, later⟩ := tracks.exists_placed popped
      have next : ∀ other, graph.MayFollow graph.nodes sorting.placed other ↔
          other ∈ sorting.ready := fun other => by
        rw [tracks.arranged.mayFollow_iff, tracks.ready]
      refine ih later ?_ ?_
      · rw [one]
        exact greedy.place ((next name).mpr member) fun other follows =>
          least other ((next other).mp follows)
      · rw [run?, popped] at run
        simpa [placed] using run

end Sorting

namespace Graph

variable {graph : Graph} {names : List String} {parent child : String}

/-- In an order of all nodes, every parent stands before its children. -/
theorem IsOrder.idxOf_lt (order : graph.IsOrder graph.nodes names)
    (edge : graph.Edge parent child) :
    names.idxOf parent < names.idxOf child := by
  have listed : child ∈ names := order.perm.mem_iff.mpr edge.mem_nodes.2
  obtain ⟨front, back, rfl⟩ := List.append_of_mem listed
  have earlier : parent ∈ front := order.ancestors front child back rfl parent edge.mem_nodes.1
    (.single edge)
  rw [List.idxOf_append_of_mem earlier, List.idxOf_append_of_notMem order.mayFollow.absent]
  exact Nat.lt_add_right _ (List.idxOf_lt_length_of_mem earlier)

/-- A graph whose nodes have an order has no cycle. -/
theorem IsOrder.acyclic (order : graph.IsOrder graph.nodes names) : graph.Acyclic :=
  acyclic_of_rank names.idxOf fun _ edge => order.idxOf_lt edge

/-- The topological sort finds the least order of all nodes, and there is no order when it finds
none. -/
theorem topologicalSort?_eq_some_iff :
    graph.topologicalSort? = some names ↔ graph.IsLeastOrder graph.nodes names := by
  have least : ∀ {sorted}, graph.topologicalSort? = some sorted →
      graph.IsLeastOrder graph.nodes sorted := by
    intro sorted found
    obtain ⟨last, run, tracks, -⟩ := (Sorting.tracks_start graph).exists_run graph.size
    have placed : graph.placedOrder? = some last.placed := by rw [placedOrder?, run]; rfl
    rw [topologicalSort?, placed, Option.filter_eq_some_iff, decide_eq_true_iff] at found
    obtain ⟨same, full⟩ := found
    obtain rfl := Option.some.inj same
    have greedy := (Sorting.tracks_start graph).greedy_run .nil run
    exact greedy.isLeastOrder fun name member => tracks.arranged.mem_of_length full.ge member
  refine ⟨least, fun minimal => ?_⟩
  obtain ⟨sorted, found⟩ := Option.isSome_iff_exists.mp
    (isSome_topologicalSort?_iff.mpr minimal.isOrder.acyclic)
  rw [found, (least found).eq minimal]

end Graph
end SqlPipeline
