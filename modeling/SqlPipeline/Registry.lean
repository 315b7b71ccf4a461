import SqlPipeline.NameMap
import SqlPipeline.Results.Writer
import SqlPipeline.Text.Quoted

/-!
# Plugins

A registry holds plugins of several kinds by the name of their group and their own name. A group
has a name and a kind; two groups may share a name, and then a plugin of one is found under that
name but cannot be used as a plugin of the other.
-/

namespace SqlPipeline

/-- A category of plugins. -/
structure PluginGroup (κ : Type) where
  name : String
  /-- The kind of the plugins in the group. -/
  kind : κ
deriving DecidableEq

/-- Why a plugin cannot be used. -/
inductive PluginError where
  | notFound (group name : String)
  | typeMismatch (group name : String)
deriving DecidableEq, Repr

/-- What is wrong, in words. -/
def PluginError.message : PluginError → String
  | notFound group name => "No plugin named '" ++ name ++ "' in group '" ++ group ++ "'"
  | typeMismatch group name =>
    "Plugin '" ++ name ++ "' in group '" ++ group
      ++ "' was registered with a different plugin type"

/-- The plugins of each group by name, with their kinds. -/
structure Registry {κ : Type} (α : κ → Type) where
  groups : NameMap (NameMap ((kind : κ) × α kind))

namespace Registry

variable {κ : Type} [DecidableEq κ] {α : κ → Type}

/-- The name of the plugin that is used when none is named. -/
def defaultName : String := "default"

/-- The registry without plugins. -/
def empty : Registry α := ⟨.empty⟩

/-- Register a plugin, replacing an earlier one of its name and the name of its group. -/
def register (registry : Registry α) (group : PluginGroup κ) (name : String)
    (plugin : α group.kind) : Registry α :=
  ⟨registry.groups.update group.name fun plugins =>
    (plugins.getD .empty).insert name ⟨group.kind, plugin⟩⟩

/-- What is registered under two names. -/
def entry? (registry : Registry α) (group name : String) : Option ((kind : κ) × α kind) :=
  (registry.groups.get? group).bind (·.get? name)

/-- The plugin of a group with a name. -/
def get (registry : Registry α) (group : PluginGroup κ) (name : String) :
    Except PluginError (α group.kind) :=
  match registry.entry? group.name name with
  | none => .error (.notFound group.name name)
  | some ⟨kind, plugin⟩ =>
    if same : kind = group.kind then .ok (same ▸ plugin)
    else .error (.typeMismatch group.name name)

/-- Whether something is registered under two names. -/
def contains (registry : Registry α) (group name : String) : Bool :=
  (registry.entry? group name).isSome

/-- The names of the plugins in a group, ascending. -/
def names (registry : Registry α) (group : String) : List String :=
  match registry.groups.get? group with
  | some plugins => plugins.keys
  | none => []

/-- The names of the groups, ascending. -/
def groupNames (registry : Registry α) : List String := registry.groups.keys

theorem mem_names_of_get {registry : Registry α} {group : PluginGroup κ} {name : String}
    {plugin : α group.kind} (found : registry.get group name = .ok plugin) :
    name ∈ registry.names group.name := by
  rw [get, entry?] at found
  rw [names]
  cases held : registry.groups.get? group.name with
  | none =>
    rw [held] at found
    cases found
  | some plugins =>
    rw [held, Option.bind_some] at found
    cases entry : plugins.get? name with
    | none =>
      rw [entry] at found
      cases found
    | some plugin => exact NameMap.mem_keys.mpr ⟨plugin, entry⟩

/-- The names of all plugins, each with its group. -/
def describe (registry : Registry α) : String :=
  let entries := registry.groupNames.flatMap fun group =>
    (registry.names group).map fun name =>
      "(" ++ Text.quote group ++ ", " ++ Text.quote name ++ ")"
  "[" ++ ", ".intercalate entries ++ "]"

/-- The name of the group of writers of results. -/
def writersName : String := "result_writers"

/-- The registry of the writers of results, where `plugin` makes a plugin of a writer. -/
def ofWriters (group : PluginGroup κ) (plugin : ResultWriter → α group.kind) : Registry α :=
  [ResultWriter.artifact, .email].foldl (fun registry writer =>
    registry.register group writer.name (plugin writer)) empty

end Registry

end SqlPipeline
