/-!
# Sorted lists

Lists are sorted by insertion, which keeps the order of equal values and all their repetitions.
-/

namespace SqlPipeline

variable {α : Type}

/-- Put a value in front of the first one that does not come before it. -/
def insertSorted (order : α → α → Ordering) (value : α) : List α → List α
  | [] => [value]
  | head :: tail =>
    if order value head = .gt then head :: insertSorted order value tail
    else value :: head :: tail

/-- The values of a list in ascending order; equal ones keep their order. -/
def sorted (order : α → α → Ordering) (values : List α) : List α :=
  values.foldr (insertSorted order) []

end SqlPipeline
