/-!
# Relations

A relation is written as `database.schema.identifier`. One policy says which of the segments are
written and another one which of them are quoted; a quote inside a quoted segment is doubled.
-/

namespace SqlPipeline

/-- A flag for each segment of a relation. -/
structure Policy where
  database : Bool
  schema : Bool
  identifier : Bool
deriving DecidableEq, Repr

/-- The policy with every flag set. -/
def Policy.all : Policy := ⟨true, true, true⟩

/-- The segments of a relation. -/
structure RelationPath where
  database : Option String
  schema : Option String
  identifier : Option String
deriving DecidableEq, Repr

/-- A relation and how to write it. -/
structure Relation where
  path : RelationPath
  /-- Which segments are written. -/
  included : Policy
  /-- Which segments are quoted. -/
  quoted : Policy
deriving DecidableEq, Repr

/-- Why a relation cannot be written. -/
inductive RelationError where
  | identifierTooLong (identifier : String)
  | empty
deriving DecidableEq, Repr

namespace Relation

/-- The greatest length of a segment. -/
def maxLength : Nat := 63

/-- A segment in quotes, with quotes inside it doubled. -/
def quoteIdentifier (segment : String) : String :=
  String.ofList (['"'] ++ segment.toList.flatMap (fun c => if c = '"' then ['"', '"'] else [c])
    ++ ['"'])

/-- The segments that are there and included, each with whether it is quoted. -/
def segments (relation : Relation) : List (String × Bool) :=
  let segment := fun (value : Option String) (included quoted : Bool) =>
    match value with
    | some value => if included then [(value, quoted)] else []
    | none => []
  segment relation.path.database relation.included.database relation.quoted.database
    ++ segment relation.path.schema relation.included.schema relation.quoted.schema
    ++ segment relation.path.identifier relation.included.identifier relation.quoted.identifier

/-- A segment as it is written. -/
def renderSegment (segment : String × Bool) : Except RelationError String :=
  if maxLength < segment.1.length then .error (.identifierTooLong segment.1)
  else .ok (if segment.2 then quoteIdentifier segment.1 else segment.1)

/-- The text of a relation. -/
def render (relation : Relation) : Except RelationError String := do
  let parts ← relation.segments.mapM renderSegment
  if parts.isEmpty then .error .empty else .ok (".".intercalate parts)

end Relation

/-- What is wrong, in words. -/
def RelationError.message : RelationError → String
  | identifierTooLong identifier =>
    "Identifier '" ++ identifier ++ "' is longer than " ++ toString Relation.maxLength
      ++ " characters"
  | empty => "Relation has no segments to render"

end SqlPipeline
