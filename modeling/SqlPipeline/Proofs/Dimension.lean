import Mathlib.Data.List.Induction
import SqlPipeline.NameSet
import SqlPipeline.Semantic.Dimension

/-!
# Conflicts between declarations of dimensions

Declarations are collected by dimension and data source without losing any: under two names stand
the declarations made there, in their order.  A dimension is reported just if two of its
declarations differ, which the comparison with the first one of them decides, and so the order of
the declarations has no influence on what is reported.
-/

namespace SqlPipeline.Dimension

variable {occurrences : List DimensionOccurrence} {conflict : DimensionConflict}
  {invariants : DimensionInvariants} {name source : String}

/-- What a data source declares of a dimension, in order of declaration. -/
def declared (occurrences : List DimensionOccurrence) (name source : String) :
    List DimensionInvariants :=
  (occurrences.filter fun occurrence =>
    occurrence.dimension = name ∧ occurrence.dataSource = source).map (·.invariants)

theorem mem_declared_iff : invariants ∈ declared occurrences name source ↔
    ∃ occurrence ∈ occurrences, occurrence.dimension = name ∧ occurrence.dataSource = source ∧
      occurrence.invariants = invariants := by
  simp [declared, and_assoc]

/-- One more declaration stands at the end of those of its dimension in its data source. -/
theorem declared_append (occurrences : List DimensionOccurrence)
    (occurrence : DimensionOccurrence) (name source : String) :
    declared (occurrences ++ [occurrence]) name source =
      declared occurrences name source ++
        if occurrence.dimension = name ∧ occurrence.dataSource = source then
          [occurrence.invariants]
        else [] := by
  rw [declared, declared, List.filter_append, List.map_append]
  by_cases here : occurrence.dimension = name ∧ occurrence.dataSource = source
  · simp [here]
  · simp [here]

/-! ## Collecting declarations -/

/-- The declarations of a dimension by data source, empty if there are none. -/
def sourcesOf (dimensions : NameMap (NameMap (List DimensionInvariants))) (name : String) :
    NameMap (List DimensionInvariants) :=
  (dimensions.get? name).getD .empty

/-- Add a declaration. -/
def declare (dimensions : NameMap (NameMap (List DimensionInvariants)))
    (occurrence : DimensionOccurrence) : NameMap (NameMap (List DimensionInvariants)) :=
  dimensions.update occurrence.dimension fun sources =>
    (sources.getD .empty).update occurrence.dataSource fun invariants =>
      invariants.getD [] ++ [occurrence.invariants]

theorem declarations_append (occurrences : List DimensionOccurrence)
    (occurrence : DimensionOccurrence) :
    declarations (occurrences ++ [occurrence]) = declare (declarations occurrences) occurrence :=
  List.foldl_append

theorem get?_sourcesOf_declare (dimensions : NameMap (NameMap (List DimensionInvariants)))
    (occurrence : DimensionOccurrence) (name source : String) :
    (sourcesOf (declare dimensions occurrence) name).get? source =
      if occurrence.dimension = name ∧ occurrence.dataSource = source then
        some (((sourcesOf dimensions name).get? source).getD [] ++ [occurrence.invariants])
      else (sourcesOf dimensions name).get? source := by
  rw [sourcesOf, declare, NameMap.update, NameMap.get?_insert]
  by_cases sameName : name = occurrence.dimension
  · subst sameName
    rw [if_pos rfl, Option.getD_some, NameMap.update, NameMap.get?_insert]
    by_cases sameSource : source = occurrence.dataSource
    · subst sameSource
      rw [if_pos rfl, if_pos ⟨rfl, rfl⟩]
      rfl
    · rw [if_neg sameSource, if_neg fun both => sameSource both.2.symm]
      rfl
  · rw [if_neg sameName, if_neg fun both => sameName both.1.symm]
    rfl

/-- What is collected under two names is what is declared there. -/
theorem get?_sourcesOf_eq_some_iff {list : List DimensionInvariants} :
    (sourcesOf (declarations occurrences) name).get? source = some list ↔
      list ≠ [] ∧ list = declared occurrences name source := by
  induction occurrences using List.reverseRecOn generalizing list with
  | nil =>
    constructor
    · intro held
      cases held
    · rintro ⟨nonempty, rfl⟩
      exact absurd rfl nonempty
  | append_singleton occurrences occurrence ih =>
    have kept : ((sourcesOf (declarations occurrences) name).get? source).getD [] =
        declared occurrences name source := by
      cases held : (sourcesOf (declarations occurrences) name).get? source with
      | none =>
        by_contra nonempty
        have found := ih.mpr ⟨fun none => nonempty none.symm, rfl⟩
        cases held.symm.trans found
      | some list => exact (ih.mp held).2
    rw [declarations_append, get?_sourcesOf_declare, declared_append, kept]
    by_cases here : occurrence.dimension = name ∧ occurrence.dataSource = source
    · rw [if_pos here, if_pos here, Option.some.injEq]
      constructor
      · rintro rfl
        simp
      · rintro ⟨-, rfl⟩
        rfl
    · rw [if_neg here, if_neg here, List.append_nil, ih]

theorem sourcesOf_of_get? {dimensions : NameMap (NameMap (List DimensionInvariants))}
    {sources : NameMap (List DimensionInvariants)} (found : dimensions.get? name = some sources) :
    sourcesOf dimensions name = sources := by
  rw [sourcesOf, found, Option.getD_some]

/-- The declarations of a dimension in all data sources are those that are made of it. -/
theorem mem_flatten_values_iff :
    invariants ∈ (sourcesOf (declarations occurrences) name).values.flatten ↔
      ∃ occurrence ∈ occurrences, occurrence.dimension = name ∧
        occurrence.invariants = invariants := by
  simp only [List.mem_flatten, NameMap.mem_values, get?_sourcesOf_eq_some_iff]
  constructor
  · rintro ⟨list, ⟨source, -, rfl⟩, member⟩
    obtain ⟨occurrence, listed, dimension, -, same⟩ := mem_declared_iff.mp member
    exact ⟨occurrence, listed, dimension, same⟩
  · rintro ⟨occurrence, listed, dimension, same⟩
    have member : invariants ∈ declared occurrences name occurrence.dataSource :=
      mem_declared_iff.mpr ⟨occurrence, listed, dimension, rfl, same⟩
    exact ⟨_, ⟨occurrence.dataSource, List.ne_nil_of_mem member, rfl⟩, member⟩

/-! ## Conflicts -/

/-- Comparing all declarations with the first one finds out whether any two differ. -/
theorem disagree_iff {sources : NameMap (List DimensionInvariants)} :
    disagree sources = true ↔
      ∃ first ∈ sources.values.flatten, ∃ second ∈ sources.values.flatten, first ≠ second := by
  rw [disagree]
  cases sources.values.flatten with
  | nil => simp
  | cons first rest =>
    rw [List.any_eq_true]
    constructor
    · rintro ⟨second, later, differ⟩
      exact ⟨second, List.mem_cons_of_mem first later, first, List.mem_cons_self,
        of_decide_eq_true differ⟩
    · rintro ⟨second, member, third, other, differ⟩
      by_contra agree
      have same : ∀ value ∈ first :: rest, value = first := by
        intro value member
        rcases List.mem_cons.mp member with here | later
        · exact here
        · by_contra apart
          exact agree ⟨value, later, decide_eq_true apart⟩
      exact differ ((same second member).trans (same third other).symm)

theorem mem_conflicts_iff : conflict ∈ conflicts occurrences ↔
    (declarations occurrences).get? conflict.dimension = some conflict.declarations ∧
      disagree conflict.declarations = true := by
  simp only [conflicts, List.mem_filterMap, Option.ite_none_right_eq_some, Option.some.injEq,
    NameMap.get?_eq_some_iff]
  constructor
  · rintro ⟨entry, listed, differ, rfl⟩
    exact ⟨listed, differ⟩
  · rintro ⟨listed, differ⟩
    exact ⟨_, listed, differ, rfl⟩

/-- A dimension is reported just if two of its declarations differ. -/
theorem mem_map_dimension_iff : name ∈ (conflicts occurrences).map (·.dimension) ↔
    ∃ first ∈ occurrences, ∃ second ∈ occurrences,
      first.dimension = name ∧ second.dimension = name ∧
        first.invariants ≠ second.invariants := by
  rw [List.mem_map]
  constructor
  · rintro ⟨conflict, reported, rfl⟩
    obtain ⟨found, differ⟩ := mem_conflicts_iff.mp reported
    rw [← sourcesOf_of_get? found, disagree_iff] at differ
    simp only [mem_flatten_values_iff] at differ
    obtain ⟨_, ⟨first, listed, here, rfl⟩, _, ⟨second, other, there, rfl⟩, apart⟩ := differ
    exact ⟨first, listed, second, other, here, there, apart⟩
  · rintro ⟨first, listed, second, other, here, there, apart⟩
    have differ : disagree (sourcesOf (declarations occurrences) name) = true := by
      rw [disagree_iff]
      simp only [mem_flatten_values_iff]
      exact ⟨_, ⟨first, listed, here, rfl⟩, _, ⟨second, other, there, rfl⟩, apart⟩
    cases found : (declarations occurrences).get? name with
    | none =>
      rw [sourcesOf, found] at differ
      cases differ
    | some sources =>
      rw [sourcesOf_of_get? found] at differ
      exact ⟨⟨name, sources⟩, mem_conflicts_iff.mpr ⟨found, differ⟩, rfl⟩

theorem pairwise_map_dimension (occurrences : List DimensionOccurrence) :
    ((conflicts occurrences).map (·.dimension)).Pairwise (· < ·) := by
  rw [List.pairwise_map, conflicts, List.pairwise_filterMap]
  refine (declarations occurrences).ascending.imp fun less first one second two => ?_
  rw [Option.ite_none_right_eq_some, Option.some.injEq] at one two
  rw [← one.2, ← two.2]
  exact less

/-- Exactly the dimensions with two different declarations are reported, ascending by name, each
with all of its declarations by data source and in their order; in what order the declarations were
made does not matter to which dimensions are reported. -/
theorem conflicts_exact (occurrences : List DimensionOccurrence) :
    (∀ name, name ∈ (conflicts occurrences).map (·.dimension) ↔
      ∃ first ∈ occurrences, ∃ second ∈ occurrences,
        first.dimension = name ∧ second.dimension = name ∧
          first.invariants ≠ second.invariants) ∧
    ((conflicts occurrences).map (·.dimension)).Pairwise (· < ·) ∧
    (∀ conflict ∈ conflicts occurrences, ∀ source list,
      conflict.declarations.get? source = some list ↔
        list ≠ [] ∧ list = declared occurrences conflict.dimension source) ∧
    (∀ permuted : List DimensionOccurrence, permuted.Perm occurrences →
      (conflicts permuted).map (·.dimension) = (conflicts occurrences).map (·.dimension)) := by
  refine ⟨fun name => mem_map_dimension_iff, pairwise_map_dimension occurrences, ?_, ?_⟩
  · intro conflict reported source list
    rw [← sourcesOf_of_get? (mem_conflicts_iff.mp reported).1, get?_sourcesOf_eq_some_iff]
  · intro permuted same
    have sets : (⟨_, pairwise_map_dimension permuted⟩ : NameSet) =
        ⟨_, pairwise_map_dimension occurrences⟩ := by
      refine NameSet.ext_mem fun name => ?_
      show name ∈ (conflicts permuted).map _ ↔ name ∈ (conflicts occurrences).map _
      simp only [mem_map_dimension_iff, same.mem_iff]
    exact congrArg NameSet.toList sets

/-- Two data sources agree on a dimension, and one of them declares it differently later on. -/
theorem conflicts_exact_of_later :
    let first : DimensionOccurrence := ⟨"orders", "day", ⟨.time, false⟩⟩
    let second : DimensionOccurrence := ⟨"events", "day", ⟨.time, false⟩⟩
    let later : DimensionOccurrence := ⟨"orders", "day", ⟨.time, true⟩⟩
    "day" ∈ (conflicts [first, second, later]).map (·.dimension) ∧
      (conflicts [later, first, second]).map (·.dimension) =
        (conflicts [first, second, later]).map (·.dimension) ∧
      ∀ conflict ∈ conflicts [first, second, later], conflict.dimension = "day" →
        conflict.declarations.get? "orders" = some [⟨.time, false⟩, ⟨.time, true⟩] := by
  intro first second later
  obtain ⟨reported, -, declarations, order⟩ := conflicts_exact [first, second, later]
  refine ⟨?_, order _ ?_, fun conflict listed day => ?_⟩
  · exact (reported "day").mpr ⟨first, by simp, later, by simp, rfl, rfl, by decide⟩
  · exact (List.perm_append_comm : ([later] ++ [first, second]).Perm _)
  · refine (declarations conflict listed "orders" _).mpr ⟨by decide, ?_⟩
    rw [day]
    decide

end SqlPipeline.Dimension
