import SqlPipeline.Json.Parser
import SqlPipeline.Json.Printer
import SqlPipeline.Json.Record
import SqlPipeline.Model.Project

/-!
# Manifests

A manifest is a snapshot of a project: its models with their settings and digests, and for each
model the models that it depends on and that depend on it.
-/

namespace SqlPipeline

/-- Where a manifest comes from. -/
structure ManifestMetadata where
  schemaVersion : String
  generatedAt : String
  projectName : String
  targetName : String
deriving DecidableEq

/-- A model in a manifest. -/
structure ManifestNode where
  id : String
  name : String
  resourceType : String
  package : String
  path : String
  checksum : String
  database : Option String
  schema : Option String
  relationName : Option String
  /-- Whether the model takes part in runs. -/
  enabled : Bool
  materialized : Option String
  /-- The ids of the models that are read. -/
  dependsOn : List String
  /-- The source tables that are read. -/
  sources : List (String × String)
deriving DecidableEq

/-- A snapshot of a project. -/
structure Manifest where
  metadata : ManifestMetadata
  nodes : NameMap ManifestNode
  /-- The models that each model depends on. -/
  parents : NameMap (List String)
  /-- The models that depend on each model. -/
  children : NameMap (List String)
deriving DecidableEq

/-- Why a manifest cannot be read or written. -/
inductive ManifestError where
  | io (path : String) (error : FileError)
  | malformed
deriving DecidableEq, Repr

/-- What is wrong, in words. -/
def ManifestError.message : ManifestError → String
  | io path error => "Failed to access manifest file " ++ path ++ ": " ++ error.message
  | malformed => "Failed to parse manifest JSON"

namespace Manifest

/-- The version of the format. -/
def version : String := "modelflow/manifest/v1"

/-- A model as a node of the manifest. -/
def nodeOf (project : Project) (model : Model) : ManifestNode :=
  let path := (project.relationOf model).path
  { id := model.id
    name := model.name
    resourceType := "model"
    package := model.package
    path := model.path.shown
    checksum := model.checksum
    database := path.database
    schema := path.schema
    relationName := path.identifier
    enabled := true
    materialized := some model.materialized
    dependsOn := model.dependsOn
    sources := model.sources }

/-- The snapshot of a project at a time. -/
def ofProject (project : Project) (generatedAt : String) : Manifest :=
  let graph := project.graph
  { metadata := ⟨version, generatedAt, project.settings.name, project.settings.target.name⟩
    nodes := project.models.mapValues fun _ => nodeOf project
    parents := project.models.mapValues fun _ model => model.dependsOn
    children := project.models.mapValues fun id _ => sorted compare (graph.children id) }

/-- The graph of the dependencies in a manifest: of the parents if there are any, and otherwise of
what the nodes depend on. -/
def graph (manifest : Manifest) : Graph :=
  let addParents := fun (graph : Graph) (id : String) (parents : List String) =>
    parents.foldl (fun graph parent => graph.addEdge parent id) graph
  if manifest.parents.isEmpty then
    let graph := manifest.nodes.entries.foldl (fun graph entry =>
      addParents graph entry.1 entry.2.dependsOn) .empty
    manifest.nodes.keys.foldl Graph.addNode graph
  else
    let graph := manifest.nodes.keys.foldl Graph.addNode .empty
    manifest.parents.entries.foldl (fun graph entry =>
      addParents (graph.addNode entry.1) entry.1 entry.2) graph

/-- The ids of the nodes that are models, by id of their entry. -/
def modelIds (manifest : Manifest) : List String :=
  (manifest.nodes.values.filter (·.resourceType = "model")).map (·.id)

open Json

/-- A node as JSON. -/
def nodeToJson (node : ManifestNode) : Json :=
  .object [
    ("unique_id", .string node.id),
    ("name", .string node.name),
    ("resource_type", .string node.resourceType),
    ("package_name", .string node.package),
    ("original_file_path", .string node.path),
    ("checksum", .string node.checksum),
    ("database", .nullable .string node.database),
    ("schema", .nullable .string node.schema),
    ("alias", .nullable .string node.relationName),
    ("config", .object [
      ("enabled", .bool node.enabled),
      ("materialized", .nullable .string node.materialized)]),
    ("depends_on", .object [("nodes", .strings node.dependsOn)]),
    ("sources", .array (node.sources.map fun source => .strings [source.1, source.2]))]

/-- A manifest as JSON. -/
def toJson (manifest : Manifest) : Json :=
  .object [
    ("metadata", .object [
      ("schema_version", .string manifest.metadata.schemaVersion),
      ("generated_at", .string manifest.metadata.generatedAt),
      ("project_name", .string manifest.metadata.projectName),
      ("target_name", .string manifest.metadata.targetName)]),
    ("nodes", .ofMap nodeToJson manifest.nodes),
    ("parent_map", .ofMap .strings manifest.parents),
    ("child_map", .ofMap .strings manifest.children)]

/-- Read where a manifest comes from. -/
def metadataOfJson? (value : Json) : Option ManifestMetadata := do
  let record ← Record.read? false
    ["schema_version", "generated_at", "project_name", "target_name"] value
  some {
    schemaVersion := ← record.required? "schema_version" text?
    generatedAt := ← record.required? "generated_at" text?
    projectName := ← record.required? "project_name" text?
    targetName := ← record.withDefault? "target_name" "" text? }

/-- Read whether a model takes part in runs and how it is built. -/
def configOfJson? (value : Json) : Option (Bool × Option String) := do
  let record ← Record.read? false ["enabled", "materialized"] value
  let enabled ← record.withDefault? "enabled" true bool?
  let materialized ← record.withDefault? "materialized" none (Json.nullable? text?)
  some (enabled, materialized)

/-- Read what a model depends on. -/
def dependsOnOfJson? (value : Json) : Option (List String) := do
  let record ← Record.read? false ["nodes"] value
  record.withDefault? "nodes" [] texts?

/-- Read a source table. -/
def sourceOfJson? (value : Json) : Option (String × String) :=
  match texts? value with
  | some [source, table] => some (source, table)
  | _ => none

/-- Read a node. -/
def nodeOfJson? (value : Json) : Option ManifestNode := do
  let record ← Record.read? false
    ["unique_id", "name", "resource_type", "package_name", "original_file_path", "checksum",
      "database", "schema", "alias", "config", "depends_on", "sources"] value
  let (enabled, materialized) ← record.withDefault? "config" (false, none) configOfJson?
  some {
    id := ← record.required? "unique_id" text?
    name := ← record.required? "name" text?
    resourceType := ← record.required? "resource_type" text?
    package := ← record.required? "package_name" text?
    path := ← record.required? "original_file_path" text?
    checksum := ← record.required? "checksum" text?
    database := ← record.withDefault? "database" none (Json.nullable? text?)
    schema := ← record.withDefault? "schema" none (Json.nullable? text?)
    relationName := ← record.withDefault? "alias" none (Json.nullable? text?)
    enabled
    materialized
    dependsOn := ← record.withDefault? "depends_on" [] dependsOnOfJson?
    sources := ← record.withDefault? "sources" [] (list? sourceOfJson?) }

/-- Read a manifest. -/
def ofJson? (value : Json) : Option Manifest := do
  let record ← Record.read? false ["metadata", "nodes", "parent_map", "child_map"] value
  some {
    metadata := ← record.required? "metadata" metadataOfJson?
    nodes := ← record.required? "nodes" (map? nodeOfJson?)
    parents := ← record.withDefault? "parent_map" .empty (map? texts?)
    children := ← record.withDefault? "child_map" .empty (map? texts?) }

/-- The manifest that a text denotes. -/
def parse (text : String) : Except ManifestError Manifest :=
  match (Json.read? text).bind ofJson? with
  | some manifest => .ok manifest
  | none => .error .malformed

/-- The text of a manifest. -/
def print (manifest : Manifest) : String := Json.pretty manifest.toJson

/-- Read a manifest file. -/
def load (tree : FileTree) (path : String) : Except ManifestError Manifest :=
  match tree.read path with
  | .ok text => parse text
  | .error error => .error (.io path error)

/-- Write a manifest file, with the directories that it needs. -/
def save (manifest : Manifest) (tree : FileTree) (path : String) :
    Except ManifestError FileTree := do
  let tree ← match Path.parent? path with
    | none => .ok tree
    | some parent => (tree.createDirectories parent).mapError (.io parent)
  (tree.write path manifest.print).mapError (.io path)

end Manifest

end SqlPipeline
