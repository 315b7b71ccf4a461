import SqlPipeline.Text.Blank
import SqlPipeline.Text.Case

/-!
# Materializations

How a model is kept: as a table or a view, by adding to a table, as one of the special kinds, or not
at all but inlined where it is read. The statement that builds a model wraps its select without
blanks around it and without a semicolon at its end.
-/

namespace SqlPipeline

/-- How a model is kept. -/
inductive Materialization where
  | table
  | view
  | incremental
  /-- Not kept, but inlined where it is read. -/
  | ephemeral
  | seed
  | snapshot
  | test
  | custom (name : String)
deriving DecidableEq, Repr

namespace Materialization

/-- The name of a materialization. -/
def text : Materialization → String
  | table => "table"
  | view => "view"
  | incremental => "incremental"
  | ephemeral => "ephemeral"
  | seed => "seed"
  | snapshot => "snapshot"
  | test => "test"
  | custom name => name

/-- Whether a materialization is one of the known ones. -/
def isBuiltin : Materialization → Bool
  | custom _ => false
  | _ => true

/-- The materialization with a name, in any case and with blanks around it. -/
def ofText (text : String) : Materialization :=
  match Text.lowerAscii (Text.trim text) with
  | "table" => table
  | "view" => view
  | "incremental" => incremental
  | "ephemeral" => ephemeral
  | "seed" => seed
  | "snapshot" => snapshot
  | "test" => test
  | name => custom name

end Materialization

/-- A select without blanks around it and without semicolons at its end. -/
def cleanSelect (sql : String) : String :=
  String.ofList (Text.dropEndWhile Text.isBlank
    (Text.dropEndWhile (· = ';') (Text.trimChars sql.toList)))

namespace Materialization

/-- A statement with a select in parentheses. -/
def wrapped (opening relation closing select : String) : String :=
  opening ++ relation ++ closing ++ "(\n" ++ select ++ "\n)"

/-- The statement that builds a relation from a select, if anything is built. -/
def statement? (materialization : Materialization) (relation sql : String) : Option String :=
  let select := cleanSelect sql
  match materialization with
  | ephemeral => none
  | table => some (wrapped "create table " relation " as " select)
  | seed => some (wrapped "create table " relation " as " select)
  | snapshot => some (wrapped "create table " relation " as " select)
  | view => some (wrapped "create view " relation " as " select)
  | incremental => some (wrapped "insert into " relation " " select)
  | test => some select
  | custom _ => some select

end Materialization

end SqlPipeline
