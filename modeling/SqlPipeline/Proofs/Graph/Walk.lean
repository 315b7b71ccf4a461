import Mathlib.Data.Finset.Card
import Mathlib.Data.Finset.SDiff
import Mathlib.Logic.Relation
import Mathlib.Order.Lattice.Nat
import SqlPipeline.Graph.Walk

/-!
# What a walk finds

A walk lists, each once, exactly the names that can be reached from its frontier without meeting a
seen name.  The number of levels that it may take does not matter as soon as it exceeds the number
of names that can be reached, because every level but the last one holds a new name.  The level of a
name is the length of a shortest path to it, so names are listed in non-decreasing distance.
-/

namespace SqlPipeline
namespace Walk

variable {next : String → List String} {seen frontier : List String} {name : String}

/-! ## Paths and their lengths -/

/-- A path of a given number of steps leads from one name to another. -/
inductive Leads (step : String → String → Prop) : Nat → String → String → Prop
  | refl (name : String) : Leads step 0 name name
  | tail {length : Nat} {source middle target : String} :
      Leads step length source middle → step middle target →
      Leads step (length + 1) source target

namespace Leads

variable {step : String → String → Prop} {length : Nat} {source target : String}

theorem head {middle : String} (first : step source middle)
    (path : Leads step length middle target) : Leads step (length + 1) source target := by
  induction path with
  | refl => exact .tail (.refl source) first
  | tail _ last ih => exact .tail (ih first) last

theorem cases_head (path : Leads step (length + 1) source target) :
    ∃ middle, step source middle ∧ Leads step length middle target := by
  induction length generalizing target with
  | zero =>
    cases path with
    | tail path last =>
      cases path
      exact ⟨target, last, .refl target⟩
  | succ length ih =>
    cases path with
    | tail path last =>
      obtain ⟨middle, first, rest⟩ := ih path
      exact ⟨middle, first, rest.tail last⟩

theorem mono {other : String → String → Prop}
    (embed : ∀ source target, step source target → other source target)
    (path : Leads step length source target) : Leads other length source target := by
  induction path with
  | refl name => exact .refl name
  | tail _ last ih => exact .tail ih (embed _ _ last)

end Leads

theorem reflTransGen_iff_leads {step : String → String → Prop} {source target : String} :
    Relation.ReflTransGen step source target ↔ ∃ length, Leads step length source target := by
  constructor
  · intro path
    induction path with
    | refl => exact ⟨0, .refl source⟩
    | tail _ last ih =>
      obtain ⟨length, path⟩ := ih
      exact ⟨length + 1, path.tail last⟩
  · rintro ⟨length, path⟩
    induction path with
    | refl => exact .refl
    | tail _ last ih => exact ih.tail last

/-- The number of steps of a shortest path, where `next` lists the neighbours of a name. -/
noncomputable def distance (next : String → List String) (source target : String) : Nat :=
  sInf {length | Leads (fun source target => target ∈ next source) length source target}

theorem Leads.distance_le {length : Nat} {source target : String}
    (path : Leads (fun source target => target ∈ next source) length source target) :
    distance next source target ≤ length :=
  Nat.sInf_le path

theorem Leads.attained {length : Nat} {source target : String}
    (path : Leads (fun source target => target ∈ next source) length source target) :
    Leads (fun source target => target ∈ next source) (distance next source target) source
      target := by
  have reachable : {length | Leads (fun source target => target ∈ next source) length source
      target}.Nonempty := ⟨length, path⟩
  exact Nat.sInf_mem reachable

/-- A step to a neighbour that has not been seen. -/
def Steps (next : String → List String) (seen : List String) (source target : String) : Prop :=
  target ∈ next source ∧ target ∉ seen

theorem steps_nil (next : String → List String) :
    Steps next [] = fun source target => target ∈ next source := by
  funext source target
  simp [Steps]

/-- A name is reached from a frontier without meeting a seen name. -/
def Reaches (next : String → List String) (seen frontier : List String) (name : String) : Prop :=
  ∃ start ∈ frontier, start ∉ seen ∧ Relation.ReflTransGen (Steps next seen) start name

/-- A name is reached from a frontier by a path of a given length that meets no seen name. -/
def ReachesIn (next : String → List String) (seen frontier : List String) (length : Nat)
    (name : String) : Prop :=
  ∃ start ∈ frontier, start ∉ seen ∧ Leads (Steps next seen) length start name

theorem reaches_iff_reachesIn :
    Reaches next seen frontier name ↔ ∃ length, ReachesIn next seen frontier length name := by
  simp only [Reaches, ReachesIn, reflTransGen_iff_leads]
  constructor
  · rintro ⟨start, member, unseen, length, path⟩
    exact ⟨length, start, member, unseen, path⟩
  · rintro ⟨length, start, member, unseen, path⟩
    exact ⟨start, member, unseen, length, path⟩

/-! ## Levels -/

@[simp]
theorem mem_fresh {names : List String} :
    name ∈ fresh seen names ↔ name ∈ names ∧ name ∉ seen := by
  induction names generalizing seen with
  | nil => simp [fresh]
  | cons head tail ih =>
    rw [fresh]
    split
    next old =>
      rw [ih, List.mem_cons]
      constructor
      · rintro ⟨member, unseen⟩
        exact ⟨.inr member, unseen⟩
      · rintro ⟨rfl | member, unseen⟩
        · exact absurd old unseen
        · exact ⟨member, unseen⟩
    next new =>
      by_cases same : name = head
      · subst same
        simp [new]
      · simp [ih, same]

theorem nodup_fresh (seen names : List String) : (fresh seen names).Nodup := by
  induction names generalizing seen with
  | nil => exact List.nodup_nil
  | cons head tail ih =>
    rw [fresh]
    split
    · exact ih seen
    · refine List.nodup_cons.mpr ⟨fun member => ?_, ih _⟩
      exact (mem_fresh.mp member).2 List.mem_cons_self

theorem levels_nil (next : String → List String) (fuel : Nat) (seen : List String) :
    levels next fuel seen [] = [] := by
  cases fuel <;> rfl

theorem levels_succ (next : String → List String) (fuel : Nat) (seen frontier : List String) :
    levels next (fuel + 1) seen frontier =
      fresh seen frontier ++ levels next fuel (seen ++ fresh seen frontier)
        ((fresh seen frontier).flatMap next) := by
  rw [levels]
  split
  next empty => rw [empty, List.flatMap_nil, levels_nil, List.append_nil]
  next nonempty => rw [nonempty]

theorem Reaches.not_mem_seen (reached : Reaches next seen frontier name) : name ∉ seen := by
  obtain ⟨start, -, unseen, path⟩ := reached
  rcases path.cases_tail with rfl | ⟨_, _, step⟩
  · exact unseen
  · exact step.2

/-- What is reached behind the first level is reached from the frontier by one step more. -/
theorem ReachesIn.of_next_level {length : Nat}
    (reached : ReachesIn next (seen ++ fresh seen frontier) ((fresh seen frontier).flatMap next)
      length name) :
    ReachesIn next seen frontier (length + 1) name := by
  obtain ⟨middle, member, unseen, path⟩ := reached
  obtain ⟨start, level, neighbour⟩ := List.mem_flatMap.mp member
  have first : Steps next seen start middle :=
    ⟨neighbour, fun old => unseen (List.mem_append_left _ old)⟩
  have later : Leads (Steps next seen) length middle name :=
    path.mono fun _ _ step => ⟨step.1, fun old => step.2 (List.mem_append_left _ old)⟩
  exact ⟨start, (mem_fresh.mp level).1, (mem_fresh.mp level).2, later.head first⟩

/-- A path from the frontier to a name that is not on the first level leaves that level for good,
and what remains of it is shorter. -/
theorem ReachesIn.behind {length : Nat} (reached : ReachesIn next seen frontier length name)
    (later : name ∉ fresh seen frontier) :
    ∃ shorter < length, ReachesIn next (seen ++ fresh seen frontier)
      ((fresh seen frontier).flatMap next) shorter name := by
  obtain ⟨start, member, unseen, path⟩ := reached
  induction path with
  | refl => exact absurd (mem_fresh.mpr ⟨member, unseen⟩) later
  | @tail length start middle target path last ih =>
    have outside : target ∉ seen ++ fresh seen frontier := by
      simp only [List.mem_append, not_or]
      exact ⟨last.2, later⟩
    by_cases level : middle ∈ fresh seen frontier
    · exact ⟨0, Nat.succ_pos _, target, List.mem_flatMap.mpr ⟨middle, level, last.1⟩, outside,
        .refl target⟩
    · obtain ⟨shorter, less, first, behind, new, way⟩ := ih level member unseen
      exact ⟨shorter + 1, Nat.succ_lt_succ less, first, behind, new, way.tail ⟨last.1, outside⟩⟩

theorem Reaches.of_next_level
    (reached : Reaches next (seen ++ fresh seen frontier) ((fresh seen frontier).flatMap next)
      name) :
    Reaches next seen frontier name := by
  obtain ⟨length, reached⟩ := reaches_iff_reachesIn.mp reached
  exact reaches_iff_reachesIn.mpr ⟨length + 1, reached.of_next_level⟩

/-- What is reached from the frontier is on the first level or reached behind it. -/
theorem Reaches.mem_level_or (reached : Reaches next seen frontier name) :
    name ∈ fresh seen frontier ∨
      Reaches next (seen ++ fresh seen frontier) ((fresh seen frontier).flatMap next) name := by
  by_cases level : name ∈ fresh seen frontier
  · exact .inl level
  · obtain ⟨length, reached⟩ := reaches_iff_reachesIn.mp reached
    obtain ⟨shorter, -, reached⟩ := reached.behind level
    exact .inr (reaches_iff_reachesIn.mpr ⟨shorter, reached⟩)

theorem reaches_of_mem_levels {fuel : Nat} (found : name ∈ levels next fuel seen frontier) :
    Reaches next seen frontier name := by
  induction fuel generalizing seen frontier with
  | zero => cases found
  | succ fuel ih =>
    rw [levels_succ, List.mem_append] at found
    rcases found with level | later
    · have fresh := mem_fresh.mp level
      exact ⟨name, fresh.1, fresh.2, .refl⟩
    · exact (ih later).of_next_level

/-- A level that is not empty leaves fewer unseen names in a pool that holds whatever is reached. -/
theorem card_unseen_lt (pool : Finset String)
    (bounded : ∀ name, Reaches next seen frontier name → name ∈ pool)
    (level : name ∈ fresh seen frontier) :
    (pool \ (seen ++ fresh seen frontier).toFinset).card < (pool \ seen.toFinset).card := by
  obtain ⟨listed, unseen⟩ := mem_fresh.mp level
  have inside : name ∈ pool := bounded name ⟨name, listed, unseen, .refl⟩
  refine Finset.card_lt_card (Finset.ssubset_iff_of_subset ?_ |>.mpr ⟨name, ?_, ?_⟩)
  · refine Finset.sdiff_subset_sdiff (Finset.Subset.refl _) ?_
    rw [List.toFinset_append]
    exact Finset.subset_union_left
  · simp [inside, unseen]
  · simp [level]

/-- A walk with more levels than there are unseen names in a pool misses nothing in that pool. -/
theorem mem_levels_of_reaches {fuel : Nat} (pool : Finset String)
    (bounded : ∀ name, Reaches next seen frontier name → name ∈ pool)
    (enough : (pool \ seen.toFinset).card < fuel)
    (reached : Reaches next seen frontier name) : name ∈ levels next fuel seen frontier := by
  induction fuel generalizing seen frontier with
  | zero => exact absurd enough (Nat.not_lt_zero _)
  | succ fuel ih =>
    rw [levels_succ, List.mem_append]
    rcases reached.mem_level_or with level | later
    · exact .inl level
    · refine .inr (ih (fun other behind => bounded other behind.of_next_level) ?_ later)
      obtain ⟨_, member, -, -⟩ := later
      obtain ⟨start, level, -⟩ := List.mem_flatMap.mp member
      have fewer := card_unseen_lt pool bounded level
      omega

theorem nodup_levels (next : String → List String) (fuel : Nat) (seen frontier : List String) :
    (levels next fuel seen frontier).Nodup := by
  induction fuel generalizing seen frontier with
  | zero => exact List.nodup_nil
  | succ fuel ih =>
    rw [levels_succ]
    refine List.nodup_append.mpr ⟨nodup_fresh _ _, ih _ _, ?_⟩
    rintro first level later behind rfl
    exact (reaches_of_mem_levels behind).not_mem_seen (List.mem_append_right _ level)

/-- With nothing seen before, a walk that stays among the names of a list finds what can be
reached, provided that it has more levels than the list has names. -/
theorem mem_levels_iff {fuel : Nat} {names : List String} (start : frontier ⊆ names)
    (closed : ∀ name ∈ names, next name ⊆ names) (enough : names.length < fuel) :
    name ∈ levels next fuel [] frontier ↔
      ∃ source ∈ frontier, Relation.ReflTransGen (fun source target => target ∈ next source)
        source name := by
  have reaches : Reaches next [] frontier name ↔
      ∃ source ∈ frontier, Relation.ReflTransGen (fun source target => target ∈ next source)
        source name := by
    simp [Reaches, steps_nil]
  rw [← reaches]
  refine ⟨reaches_of_mem_levels, mem_levels_of_reaches names.toFinset ?_ ?_⟩
  · rintro other ⟨source, member, -, path⟩
    rw [List.mem_toFinset]
    induction path with
    | refl => exact start member
    | tail _ step ih => exact closed _ ih step.1
  · have bound := List.toFinset_card_le names
    simpa using Nat.lt_of_le_of_lt bound enough

/-! ## Distances -/

/-- Whatever a walk lists is at least as near to the frontier as what it lists later. -/
theorem pairwise_levels (next : String → List String) (fuel : Nat) (seen frontier : List String) :
    (levels next fuel seen frontier).Pairwise fun first second =>
      ∀ length, ReachesIn next seen frontier length second →
        ∃ shorter ≤ length, ReachesIn next seen frontier shorter first := by
  induction fuel generalizing seen frontier with
  | zero => exact List.Pairwise.nil
  | succ fuel ih =>
    have nearest : ∀ first ∈ fresh seen frontier, ReachesIn next seen frontier 0 first := by
      intro first level
      obtain ⟨member, unseen⟩ := mem_fresh.mp level
      exact ⟨first, member, unseen, .refl first⟩
    rw [levels_succ, List.pairwise_append]
    refine ⟨List.pairwise_of_forall_mem_list fun first level _ _ length _ => ?_, ?_,
      fun first level _ _ length _ => ?_⟩
    · exact ⟨0, Nat.zero_le length, nearest first level⟩
    · refine (ih _ _).imp_of_mem fun {first second} _ member nearer length reached => ?_
      have behind := (reaches_of_mem_levels member).not_mem_seen
      rw [List.mem_append, not_or] at behind
      obtain ⟨rest, less, reached⟩ := reached.behind behind.2
      obtain ⟨shorter, bound, reached⟩ := nearer rest reached
      exact ⟨shorter + 1, by omega, reached.of_next_level⟩
    · exact ⟨0, Nat.zero_le length, nearest first level⟩

/-- A walk from the neighbours of a name lists other names in non-decreasing distance from it. -/
theorem pairwise_distance {fuel : Nat} {source : String} {names : List String}
    (listed : names.Sublist (levels next fuel [] (next source))) (others : source ∉ names) :
    names.Pairwise fun first second =>
      distance next source first ≤ distance next source second := by
  have nearer := (pairwise_levels next fuel [] (next source)).sublist listed
  refine nearer.imp_of_mem fun {first second} _ member nearer => ?_
  simp only [ReachesIn, steps_nil] at nearer
  obtain ⟨start, neighbour, -, path⟩ := reaches_of_mem_levels (listed.subset member)
  rw [steps_nil] at path
  obtain ⟨length, path⟩ := reflTransGen_iff_leads.mp (path.head neighbour)
  have shortest := path.attained
  -- A shortest path to another name has a first step, to a name of the frontier.
  cases held : distance next source second with
  | zero =>
    rw [held] at shortest
    cases shortest
    exact absurd member others
  | succ length =>
    rw [held] at shortest
    obtain ⟨start, neighbour, path⟩ := shortest.cases_head
    obtain ⟨shorter, bound, start, neighbour, -, path⟩ :=
      nearer length ⟨start, neighbour, List.not_mem_nil, path⟩
    exact (path.head neighbour).distance_le.trans (Nat.succ_le_succ bound)

end Walk
end SqlPipeline
