import SqlPipeline.Files.Tree
import SqlPipeline.Json.Record
import SqlPipeline.Relation
import SqlPipeline.Toml.Parser
import SqlPipeline.Toml.Printer

/-!
# Project settings

The settings of a project are kept in a TOML file in its directory. Every setting has a default, and
a section that is left out is the same as an empty one.
-/

namespace SqlPipeline

/-- Where models are built. -/
structure TargetSettings where
  name : String
  database : Option String
  schema : String
  /-- How many models are built at once. -/
  threads : Nat
deriving DecidableEq

/-- How a run goes. -/
structure RunSettings where
  /-- Whether to start nothing more after the first error. -/
  failFast : Bool
  /-- The plugin that writes the results. -/
  resultWriter : String
  /-- Who is told about the results. -/
  notify : List String
deriving DecidableEq

/-- The settings of a project. -/
structure Settings where
  name : String
  /-- The directories that hold the models. -/
  modelPaths : List String
  /-- The directory that everything is written to. -/
  targetPath : String
  target : TargetSettings
  /-- How models are built that do not say it themselves. -/
  materialized : String
  /-- Which segments of relations are written. -/
  included : Policy
  /-- Which segments of relations are quoted. -/
  quoted : Policy
  run : RunSettings
  /-- The project variables. -/
  vars : NameMap Json
  /-- The directory of the project. -/
  root : String

namespace Settings

/-- The name of the settings file. -/
def fileName : String := "modelflow.toml"

/-- The target of a project that sets none. -/
def defaultTarget : TargetSettings := ⟨"dev", none, "public", 4⟩

/-- The run settings of a project that sets none. -/
def defaultRun : RunSettings := ⟨false, "default", []⟩

/-- The settings of a project without a settings file. -/
def default (root : String) : Settings where
  name := "modelflow_project"
  modelPaths := ["models"]
  targetPath := "target"
  target := defaultTarget
  materialized := "view"
  included := .all
  quoted := .all
  run := defaultRun
  vars := .empty
  root

instance : Inhabited Settings := ⟨default ""⟩

/-- The directory that everything is written to. -/
def targetDir (settings : Settings) : String := Path.join settings.root settings.targetPath

open Json

/-- Read a policy; flags that are left out are set. -/
def policyOfJson? (surplus : Bool) (value : Json) : Option Policy := do
  let record ← Record.read? surplus ["database", "schema", "identifier"] value
  some {
    database := ← record.withDefault? "database" true bool?
    schema := ← record.withDefault? "schema" true bool?
    identifier := ← record.withDefault? "identifier" true bool? }

/-- A field that may be null, or missing also from a list. -/
def optionalText? (record : Record) (name : String) : Option (Option String) :=
  record.withDefault? name none (Json.nullable? text?)

/-- Read target settings. -/
def targetOfJson? (surplus : Bool) (value : Json) : Option TargetSettings := do
  let record ← Record.read? surplus ["name", "database", "schema", "threads"] value
  some {
    name := ← record.withDefault? "name" defaultTarget.name text?
    database := ← optionalText? record "database"
    schema := ← record.withDefault? "schema" defaultTarget.schema text?
    threads := ← record.withDefault? "threads" defaultTarget.threads nat? }

/-- Read the materialization of models that do not say it themselves. -/
def modelsOfJson? (surplus : Bool) (value : Json) : Option String := do
  let record ← Record.read? surplus ["materialized"] value
  record.withDefault? "materialized" "view" text?

/-- Read both policies of relations. -/
def relationOfJson? (surplus : Bool) (value : Json) : Option (Policy × Policy) := do
  let record ← Record.read? surplus ["include_policy", "quote_policy"] value
  let included ← record.withDefault? "include_policy" .all (policyOfJson? surplus)
  let quoted ← record.withDefault? "quote_policy" .all (policyOfJson? surplus)
  some (included, quoted)

/-- Read run settings. -/
def runOfJson? (surplus : Bool) (value : Json) : Option RunSettings := do
  let record ← Record.read? surplus ["fail_fast", "result_writer", "notify"] value
  some {
    failFast := ← record.withDefault? "fail_fast" defaultRun.failFast bool?
    resultWriter := ← record.withDefault? "result_writer" defaultRun.resultWriter text?
    notify := ← record.withDefault? "notify" defaultRun.notify texts? }

/-- Read project variables, in canonical form. -/
def varsOfJson? : Json → Option (NameMap Json) := map? fun value => some (canonical value)

/-- Read settings. `surplus` says whether further items of a record written as a list are
ignored. -/
def ofJson? (surplus : Bool) (root : String) (value : Json) : Option Settings := do
  let record ← Record.read? surplus
    ["name", "model_paths", "target_path", "target", "models", "relation", "run", "vars"] value
  let (included, quoted) ← record.withDefault? "relation" (.all, .all) (relationOfJson? surplus)
  some {
    name := ← record.withDefault? "name" "modelflow_project" text?
    modelPaths := ← record.withDefault? "model_paths" ["models"] texts?
    targetPath := ← record.withDefault? "target_path" "target" text?
    target := ← record.withDefault? "target" defaultTarget (targetOfJson? surplus)
    materialized := ← record.withDefault? "models" "view" (modelsOfJson? surplus)
    included
    quoted
    run := ← record.withDefault? "run" defaultRun (runOfJson? surplus)
    vars := ← record.withDefault? "vars" .empty varsOfJson?
    root }

/-- A policy as JSON. -/
def policyToJson (policy : Policy) : Json :=
  .object [("database", .bool policy.database), ("schema", .bool policy.schema),
    ("identifier", .bool policy.identifier)]

/-- Settings as JSON, without the directory of the project. -/
def toJson (settings : Settings) : Json :=
  .object [
    ("name", .string settings.name),
    ("model_paths", .strings settings.modelPaths),
    ("target_path", .string settings.targetPath),
    ("target", .object [
      ("name", .string settings.target.name),
      ("database", .nullable .string settings.target.database),
      ("schema", .string settings.target.schema),
      ("threads", .nat settings.target.threads)]),
    ("models", .object [("materialized", .string settings.materialized)]),
    ("relation", .object [
      ("include_policy", policyToJson settings.included),
      ("quote_policy", policyToJson settings.quoted)]),
    ("run", .object [
      ("fail_fast", .bool settings.run.failFast),
      ("result_writer", .string settings.run.resultWriter),
      ("notify", .strings settings.run.notify)]),
    ("vars", .ofMap id settings.vars)]

/-- Settings as the entries of a TOML document. A missing database is left out; a variable that TOML
cannot express makes the settings inexpressible. -/
def toToml? (settings : Settings) : Option (List (String × Toml)) :=
  let target := settings.target
  let members : List (String × Json) := [
    ("name", .string settings.name),
    ("model_paths", .strings settings.modelPaths),
    ("target_path", .string settings.targetPath),
    ("target", .object (
      [("name", .string target.name)] ++ optionalMember "database" .string target.database
        ++ [("schema", .string target.schema), ("threads", .nat target.threads)])),
    ("models", .object [("materialized", .string settings.materialized)]),
    ("relation", .object [
      ("include_policy", policyToJson settings.included),
      ("quote_policy", policyToJson settings.quoted)]),
    ("run", .object [
      ("fail_fast", .bool settings.run.failFast),
      ("result_writer", .string settings.run.resultWriter),
      ("notify", .strings settings.run.notify)]),
    ("vars", .ofMap id settings.vars)]
  Toml.ofJsonMembers? members

end Settings

/-- Why settings cannot be read or written. -/
inductive SettingsError where
  | io (error : FileError)
  | malformed
  | inexpressible
  | invalid (reason : String)
deriving DecidableEq, Repr

/-- What is wrong, in words. -/
def SettingsError.message : SettingsError → String
  | io error => "IO error: " ++ error.message
  | malformed => "Parse error"
  | inexpressible => "Serialize error"
  | invalid reason => "Invalid configuration: " ++ reason

namespace Settings

/-- Check that a project can be run with the settings. -/
def validate (settings : Settings) : Except SettingsError Settings :=
  if settings.target.threads = 0 then .error (.invalid "target.threads must be at least 1")
  else if settings.name.isEmpty then .error (.invalid "name must not be empty")
  else .ok settings

/-- The settings that a TOML table denotes. -/
def ofToml (root : String) (document : Toml) : Except SettingsError Settings :=
  match ofJson? true root document.toJson with
  | some settings => settings.validate
  | none => .error .malformed

/-- The settings that a TOML text denotes. -/
def parse (root text : String) : Except SettingsError Settings :=
  match Toml.parse? text with
  | some document => ofToml root document
  | none => .error .malformed

/-- The TOML text of settings. -/
def print (settings : Settings) : Except SettingsError String :=
  match settings.toToml? with
  | some document => .ok (Toml.print document)
  | none => .error .inexpressible

/-- Read a settings file; the project is the directory that holds it. -/
def load (tree : FileTree) (path : String) : Except SettingsError Settings :=
  match tree.read path with
  | .ok text => parse ((Path.parent? path).getD "") text
  | .error error => .error (.io error)

/-- Read the settings file of a project directory; without one the defaults apply. -/
def discover (tree : FileTree) (root : String) : Except SettingsError Settings :=
  let path := Path.join root fileName
  if tree.pathExists path then load tree path else .ok (default root)

/-- Write a settings file. -/
def save (settings : Settings) (tree : FileTree) (path : String) :
    Except SettingsError FileTree := do
  let text ← settings.print
  match tree.write path text with
  | .ok tree => .ok tree
  | .error error => .error (.io error)

end Settings

end SqlPipeline
