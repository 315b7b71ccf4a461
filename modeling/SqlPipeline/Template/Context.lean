import SqlPipeline.Template.Builtin

/-!
# What a model is rendered with

A template sees the target, the project variables, the relation of the model itself, and the texts
that stand for the models and source tables that it reads.
-/

namespace SqlPipeline.Template

/-- Where models are built, as templates see it. -/
structure TargetContext where
  name : String
  schema : String
  database : Option String
  threads : Nat
deriving DecidableEq

/-- What a template is rendered with. -/
structure RenderContext where
  vars : NameMap Json
  target : TargetContext
  /-- The relation of the model that is rendered. -/
  this : Option String
  /-- The text that stands for each model. -/
  refs : NameMap String
  /-- The text that stands for each source table, by `sourceKey`. -/
  sources : NameMap String

namespace RenderContext

/-- The context of a target that knows no model and no source. -/
def ofTarget (target : TargetContext) : RenderContext := ⟨.empty, target, none, .empty, .empty⟩

/-- Let a text stand for a model. -/
def addRef (context : RenderContext) (model text : String) : RenderContext :=
  { context with refs := context.refs.insert model text }

/-- Let a text stand for a source table. -/
def addSource (context : RenderContext) (source table text : String) : RenderContext :=
  { context with sources := context.sources.insert (sourceKey source table) text }

/-- A map from names as a template value. -/
def textMap (map : NameMap String) : Value :=
  .map (map.entries.map fun entry => (.string entry.1, .string entry.2))

/-- A text, or null. -/
def textOrNull : Option String → Value
  | some text => .string text
  | none => .null

/-- The names that the template sees, and their values. -/
def names (context : RenderContext) : NameMap Value :=
  let target := Value.map [
    (.string "database", textOrNull context.target.database),
    (.string "name", .string context.target.name),
    (.string "schema", .string context.target.schema),
    (.string "threads", .natural context.target.threads)]
  let vars := Value.map (context.vars.entries.map fun entry =>
    (.string entry.1, .ofJson entry.2))
  let this := match context.this with
    | some text => [("this", Value.string text)]
    | none => []
  .ofList ([("refs", textMap context.refs), ("sources", textMap context.sources),
    ("target", target), ("vars", vars)] ++ this)

end RenderContext

end SqlPipeline.Template
