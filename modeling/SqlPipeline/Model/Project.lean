import SqlPipeline.Digest.Sha256
import SqlPipeline.Files.FilePath
import SqlPipeline.Graph.Cycle
import SqlPipeline.Graph.Order
import SqlPipeline.Graph.Walk
import SqlPipeline.Model.Call
import SqlPipeline.Settings
import SqlPipeline.Sorting

/-!
# Projects

A project is a set of models with the settings that they share. A model is a text; its name is the
name of its file without the extension, and its id adds the name of the project. Every model that is
read has to be there, and no model may depend on itself.
-/

namespace SqlPipeline

/-- A model of a project. -/
structure Model where
  /-- The id of the model among all nodes. -/
  id : String
  name : String
  package : String
  /-- The path of the file in the directory of the project. -/
  path : FilePath
  /-- The text of the file. -/
  rawSql : String
  /-- The digest of the text. -/
  checksum : String
  materialized : String
  /-- The name of the relation, if it is not the name of the model. -/
  relationName : Option String
  /-- The schema of the relation, if it is not that of the target. -/
  schema : Option String
  /-- The ids of the models that are read. -/
  dependsOn : List String
  /-- The source tables that are read. -/
  sources : List (String × String)
deriving DecidableEq

/-- Why a project cannot be loaded. -/
inductive ProjectError where
  | io (path : String) (error : FileError)
  | invalidModelName (path : String)
  | duplicateModel (name first second : String)
  | unknownRef (model reference : String)
  | cycle (path : List String)
deriving DecidableEq, Repr

/-- What is wrong, in words. -/
def ProjectError.message : ProjectError → String
  | io path error => "Failed to read " ++ path ++ ": " ++ error.message
  | invalidModelName path => "Invalid model file name: " ++ path
  | duplicateModel name first second =>
    "Model '" ++ name ++ "' is defined twice (" ++ first ++ " and " ++ second ++ ")"
  | unknownRef model reference =>
    "Model '" ++ model ++ "' references unknown model '" ++ reference ++ "'"
  | cycle path => "Dependency cycle detected: " ++ " -> ".intercalate path

/-- Models and the settings that they share. -/
structure Project where
  settings : Settings
  /-- The models by id. -/
  models : NameMap Model
  /-- The ids of the models by name. -/
  ids : NameMap String

namespace Project

/-- The file of a model with the name of the model. -/
structure Source where
  name : String
  path : FilePath
  sql : String
deriving DecidableEq

/-- The names of the models of a list of files, given the names and paths of those before. -/
def nameSources : List (String × FilePath) → List (FilePath × String) →
    Except ProjectError (List Source)
  | _, [] => .ok []
  | seen, (path, sql) :: files =>
    match path.fileStem? with
    | none => .error (.invalidModelName path.shown)
    | some name =>
      match seen.lookup name with
      | some first => .error (.duplicateModel name first.shown path.shown)
      | none => do
        let sources ← nameSources ((name, path) :: seen) files
        .ok (⟨name, path, sql⟩ :: sources)

/-- The id of a model. -/
def modelId (settings : Settings) (name : String) : String :=
  "model." ++ settings.name ++ "." ++ name

/-- The id of a model that another model reads. -/
def referencedId (settings : Settings) (names : List String) (model reference : String) :
    Except ProjectError String :=
  if names.contains reference then .ok (modelId settings reference)
  else .error (.unknownRef model reference)

/-- The model of a file, where the project has models of the given names. -/
def modelOf (settings : Settings) (names : List String) (source : Source) :
    Except ProjectError Model := do
  let calls := ModelCalls.ofText source.sql
  let dependsOn ← calls.modelNames.mapM (referencedId settings names source.name)
  .ok {
    id := modelId settings source.name
    name := source.name
    package := settings.name
    path := source.path
    rawSql := source.sql
    checksum := Sha256.ofText source.sql
    materialized := (calls.settings.get? "materialized").getD settings.materialized
    relationName := calls.settings.get? "alias"
    schema := calls.settings.get? "schema"
    dependsOn
    sources := calls.sourceTables }

/-- The graph of the dependencies between models. -/
def graph (project : Project) : Graph :=
  project.models.values.foldl (fun graph model =>
    model.dependsOn.foldl (fun graph parent => graph.addEdge parent model.id)
      (graph.addNode model.id)) .empty

/-- The project of a list of files with their paths. -/
def ofSources (settings : Settings) (files : List (FilePath × String)) :
    Except ProjectError Project := do
  let sources ← nameSources [] files
  let models ← sources.mapM (modelOf settings (sources.map (·.name)))
  let project : Project := {
    settings
    models := .ofList (models.map fun model => (model.id, model))
    ids := .ofList (models.map fun model => (model.name, model.id)) }
  match project.graph.findCycle? with
  | some path => .error (.cycle path)
  | none => .ok project

/-- The model with an id. -/
def get? (project : Project) (id : String) : Option Model := project.models.get? id

/-- The model with an id, or else with a name. -/
def find? (project : Project) (key : String) : Option Model :=
  (project.get? key).or ((project.ids.get? key).bind project.get?)

/-- The relation in a schema, written as the project says. -/
def relation (settings : Settings) (schema identifier : String) : Relation where
  path := ⟨settings.target.database, some schema, some identifier⟩
  included := settings.included
  quoted := settings.quoted

/-- The relation that a model is built as. -/
def relationOf (project : Project) (model : Model) : Relation :=
  relation project.settings (model.schema.getD project.settings.target.schema)
    (model.relationName.getD model.name)

/-- The relation of a source table. -/
def sourceRelation (project : Project) (source table : String) : Relation :=
  relation project.settings source table

/-- The files of models in the model directories, in ascending order of their paths. -/
def modelFiles (settings : Settings) (tree : FileTree) : List String :=
  sorted Path.order (settings.modelPaths.flatMap fun path =>
    (tree.filesBelow (Path.join settings.root path)).filter fun file =>
      Path.extension? file = some "sql")

/-- Read a file; its path is that below the directory of the project. -/
def readSource (settings : Settings) (tree : FileTree) (file : String) :
    Except ProjectError (FilePath × String) :=
  match tree.read file with
  | .ok sql => .ok (.text ((Path.below? settings.root file).getD file), sql)
  | .error error => .error (.io file error)

/-- Load the project of the model directories. -/
def load (settings : Settings) (tree : FileTree) : Except ProjectError Project := do
  let files ← (modelFiles settings tree).mapM (readSource settings tree)
  ofSources settings files

end Project

end SqlPipeline
