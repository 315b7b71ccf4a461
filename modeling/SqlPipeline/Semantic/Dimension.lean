import SqlPipeline.NameMap

/-!
# Consistency of dimensions

A dimension may be declared in several data sources and several times in each. All declarations of
one name have to agree; where they do not, all of them are reported.
-/

namespace SqlPipeline

/-- The kind of a dimension. -/
inductive DimensionKind where
  | categorical
  | time
deriving DecidableEq, Repr

/-- What the declarations of a dimension have to agree on. -/
structure DimensionInvariants where
  kind : DimensionKind
  isPartition : Bool
deriving DecidableEq, Repr

/-- A declaration of a dimension in a data source. -/
structure DimensionOccurrence where
  dataSource : String
  dimension : String
  invariants : DimensionInvariants
deriving DecidableEq, Repr

/-- A dimension whose declarations disagree. -/
structure DimensionConflict where
  dimension : String
  /-- What each data source declares, in order of declaration. -/
  declarations : NameMap (List DimensionInvariants)

namespace Dimension

/-- The declarations of each dimension in each data source. -/
def declarations (occurrences : List DimensionOccurrence) :
    NameMap (NameMap (List DimensionInvariants)) :=
  occurrences.foldl (fun dimensions occurrence =>
    dimensions.update occurrence.dimension fun sources =>
      (sources.getD .empty).update occurrence.dataSource fun invariants =>
        invariants.getD [] ++ [occurrence.invariants]) .empty

/-- Whether two declarations of a dimension differ. -/
def disagree (declarations : NameMap (List DimensionInvariants)) : Bool :=
  match declarations.values.flatten with
  | [] => false
  | first :: rest => rest.any (· ≠ first)

/-- The dimensions whose declarations disagree, ascending by name. -/
def conflicts (occurrences : List DimensionOccurrence) : List DimensionConflict :=
  (declarations occurrences).entries.filterMap fun entry =>
    if disagree entry.2 then some ⟨entry.1, entry.2⟩ else none

end Dimension

/-- The word for a kind of dimension. -/
def DimensionKind.text : DimensionKind → String
  | categorical => "categorical"
  | time => "time"

end SqlPipeline
