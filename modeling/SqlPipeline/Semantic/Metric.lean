/-!
# References to metrics

A metric is named on its own or together with its package.
-/

namespace SqlPipeline

/-- A name of a metric, possibly in a package. -/
structure MetricReference where
  name : String
  package : Option String
deriving DecidableEq, Repr

namespace MetricReference

/-- The name of the metric after its package and a point. -/
def text (reference : MetricReference) : String :=
  match reference.package with
  | some package => package ++ "." ++ reference.name
  | none => reference.name

/-- References are ordered by name, and then by package, the one without a package first. -/
def order (first second : MetricReference) : Ordering :=
  (compare first.name second.name).then
    (match first.package, second.package with
    | none, none => .eq
    | none, some _ => .lt
    | some _, none => .gt
    | some a, some b => compare a b)

/-- Add a reference to an ascending list unless it is there. -/
def insert (reference : MetricReference) : List MetricReference → List MetricReference
  | [] => [reference]
  | head :: tail =>
    match order reference head with
    | .lt => reference :: head :: tail
    | .eq => head :: tail
    | .gt => head :: insert reference tail

/-- The distinct references of a list in ascending order. -/
def distinct (references : List MetricReference) : List MetricReference :=
  references.foldl (fun ascending reference => insert reference ascending) []

end MetricReference

end SqlPipeline
