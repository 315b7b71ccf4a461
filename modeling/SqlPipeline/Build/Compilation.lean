import SqlPipeline.Build.Materialization
import SqlPipeline.Model.Project
import SqlPipeline.Template.Render

/-!
# Compiling a project

Every model is rendered after the models that it depends on. A reference to an ephemeral model
renders to its select in parentheses; a reference to one that failed is undefined. A model that
fails to compile is recorded with its error and does not keep others from being compiled.
-/

namespace SqlPipeline

/-- A model that is ready to be built. -/
structure CompiledModel where
  id : String
  name : String
  path : FilePath
  materialization : Materialization
  /-- The relation that the model is built as. -/
  relation : String
  /-- The rendered select. -/
  sql : String
  /-- What has to be executed, if anything. -/
  statement : Option String
deriving DecidableEq, Repr

/-- Why a model cannot be compiled or written. -/
inductive CompileError where
  | render (error : Template.RenderError)
  | relation (error : RelationError)
  | io (path : String) (error : FileError)
deriving DecidableEq, Repr

/-- What is wrong, in words. -/
def CompileError.message : CompileError → String
  | render error => error.message
  | relation error => error.message
  | io path error => "Failed to write " ++ path ++ ": " ++ error.message

/-- What became of a model. -/
abbrev CompileResult := Except CompileError CompiledModel

/-- The models of a project that have been compiled, by id. -/
abbrev Compilation := NameMap CompileResult

namespace Project

/-- The text of a relation. -/
def renderRelation (relation : Relation) : Except CompileError String :=
  relation.render.mapError .relation

/-- A select in parentheses under a name. -/
def subquery (sql name : String) : String := "(\n" ++ Text.trim sql ++ "\n) as " ++ name

/-- The text that stands for a model that another one reads, if there is one. -/
def referenceText (project : Project) (compiled : Compilation) (parent : Model) :
    Except CompileError (Option String) :=
  let relation := (renderRelation (project.relationOf parent)).map some
  match compiled.get? parent.id with
  | some (.ok model) =>
    if model.materialization = .ephemeral then .ok (some (subquery model.sql model.name))
    else relation
  | some (.error _) =>
    if Materialization.ofText parent.materialized = .ephemeral then .ok none else relation
  | none => relation

/-- Add the texts for the models that a model reads. -/
def addReferences (project : Project) (compiled : Compilation) :
    List String → Template.RenderContext → Except CompileError Template.RenderContext
  | [], context => .ok context
  | id :: ids, context =>
    match project.get? id with
    | none => addReferences project compiled ids context
    | some parent => do
      match ← project.referenceText compiled parent with
      | some text => addReferences project compiled ids (context.addRef parent.name text)
      | none => addReferences project compiled ids context

/-- Add the texts for the source tables that a model reads. -/
def addSources (project : Project) :
    List (String × String) → Template.RenderContext → Except CompileError Template.RenderContext
  | [], context => .ok context
  | (source, table) :: sources, context => do
    let text ← renderRelation (project.sourceRelation source table)
    addSources project sources (context.addSource source table text)

/-- What templates see of the settings. -/
def baseContext (settings : Settings) : Template.RenderContext :=
  let target := settings.target
  { vars := settings.vars
    target := ⟨target.name, target.schema, target.database, target.threads⟩
    this := none
    refs := .empty
    sources := .empty }

/-- What a model is rendered with. -/
def contextOf (project : Project) (compiled : Compilation) (model : Model) (relation : String) :
    Except CompileError Template.RenderContext := do
  let context ← addReferences project compiled model.dependsOn (baseContext project.settings)
  let context ← addSources project model.sources context
  .ok { context with this := some relation }

/-- Compile a model after the given ones. -/
def compileModel (project : Project) (compiled : Compilation) (model : Model) : CompileResult := do
  let relation ← renderRelation (project.relationOf model)
  let context ← project.contextOf compiled model relation
  let rendered ←
    (Template.renderModel model.rawSql context (some model.path.shown)).mapError .render
  let materialization := Materialization.ofText model.materialized
  .ok {
    id := model.id
    name := model.name
    path := model.path
    materialization
    relation
    sql := rendered.text
    statement := materialization.statement? relation rendered.text }

/-- Compile models in an order. -/
def compileInOrder (project : Project) : List String → Compilation → Compilation
  | [], compiled => compiled
  | id :: ids, compiled =>
    match project.get? id with
    | none => compileInOrder project ids compiled
    | some model =>
      compileInOrder project ids (compiled.insert id (project.compileModel compiled model))

/-- Compile all models, each after those that it depends on. -/
def compile (project : Project) : Compilation :=
  let graph := project.graph
  project.compileInOrder (graph.topologicalSort?.getD graph.nodes.toList) .empty

end Project

/-- Write a text to a file, with the directories that it needs. -/
@[irreducible]
def writeSql (tree : FileTree) (path sql : String) : Except FileError FileTree := do
  let tree ← match Path.parent? path with
    | none => .ok tree
    | some parent => tree.createDirectories parent
  tree.write path sql

/-- Write a text to the file with a path below a directory. -/
def writeSqlBelow (tree : FileTree) (dir : String) (path : FilePath) (sql : String) :
    Except FileError FileTree :=
  match path.text? with
  | some path => writeSql tree (Path.join dir path) sql
  | none => .error .illegalName

namespace Compilation

/-- The models that have been compiled without an error. -/
def models (compiled : Compilation) : List CompiledModel :=
  compiled.values.filterMap fun result => result.toOption

/-- Write the selects of models below a directory, up to the first error; the number of models that
have been written is counted from `written`. -/
def writeModels (dir : String) :
    List CompiledModel → Nat → FileTree → Except CompileError Nat × FileTree
  | [], written, tree => (.ok written, tree)
  | model :: models, written, tree =>
    match writeSqlBelow tree dir model.path model.sql with
    | .ok tree => writeModels dir models (written + 1) tree
    | .error error => (.error (.io (Path.join dir model.path.shown) error), tree)

/-- Write the selects of all compiled models below a directory. -/
def write (compiled : Compilation) (dir : String) (tree : FileTree) :
    Except CompileError Nat × FileTree :=
  writeModels dir (models compiled) 0 tree

end Compilation

end SqlPipeline
