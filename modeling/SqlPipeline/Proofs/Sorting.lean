import Mathlib.Data.List.Perm.Basic
import Mathlib.Data.String.Basic
import SqlPipeline.Sorting

/-!
# What sorting does to a list

Sorting rearranges a list, and leaves it ascending if the order is one.
-/

namespace SqlPipeline

variable {α : Type} {order : α → α → Ordering} {value : α} {values : List α}

theorem insertSorted_perm (order : α → α → Ordering) (value : α) (values : List α) :
    (insertSorted order value values).Perm (value :: values) := by
  induction values with
  | nil => exact .refl _
  | cons head tail ih =>
    rw [insertSorted]
    split
    · exact (ih.cons head).trans (.swap value head tail)
    · exact .refl _

theorem sorted_perm (order : α → α → Ordering) (values : List α) :
    (sorted order values).Perm values := by
  induction values with
  | nil => exact .refl _
  | cons value values ih => exact (insertSorted_perm order value _).trans (ih.cons value)

section

variable {le : α → α → Prop} (ofGreater : ∀ a b, order a b = .gt → le b a)
  (ofNotGreater : ∀ a b, order a b ≠ .gt → le a b) (trans : ∀ {a b c}, le a b → le b c → le a c)

include ofGreater ofNotGreater trans

theorem pairwise_insertSorted (ascending : values.Pairwise le) :
    (insertSorted order value values).Pairwise le := by
  induction values with
  | nil => exact List.pairwise_singleton le value
  | cons head tail ih =>
    obtain ⟨above, rest⟩ := List.pairwise_cons.mp ascending
    rw [insertSorted]
    split
    next greater =>
      refine List.pairwise_cons.mpr ⟨fun other member => ?_, ih rest⟩
      rcases List.mem_cons.mp ((insertSorted_perm order value tail).mem_iff.mp member) with
        rfl | later
      · exact ofGreater _ _ greater
      · exact above other later
    next notGreater =>
      have first := ofNotGreater value head notGreater
      refine List.pairwise_cons.mpr ⟨fun other member => ?_, ascending⟩
      rcases List.mem_cons.mp member with rfl | later
      · exact first
      · exact trans first (above other later)

theorem pairwise_sorted (values : List α) : (sorted order values).Pairwise le := by
  induction values with
  | nil => exact .nil
  | cons value values ih => exact pairwise_insertSorted ofGreater ofNotGreater trans ih

end

/-- Names that do not repeat ascend strictly when they are sorted. -/
theorem pairwise_lt_sorted {names : List String} (nodup : names.Nodup) :
    (sorted compare names).Pairwise (· < ·) := by
  have ascends : (sorted compare names).Pairwise (· ≤ ·) := by
    refine pairwise_sorted (fun a b greater => ?_) (fun a b => compare_le_iff_le.mp)
      String.le_trans names
    exact le_of_lt (compare_gt_iff_gt.mp greater)
  have apart := (sorted_perm compare names).nodup_iff.mpr nodup
  exact (ascends.and apart).imp fun both => lt_of_le_of_ne both.1 both.2

end SqlPipeline
