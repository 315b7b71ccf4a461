import SqlPipeline.Model.Manifest
import SqlPipeline.Proofs.Json.Replacement

/-!
# Sections left out of nodes

A node of a manifest without dependencies is read as one with an empty section of dependencies.  A
node without a configuration, however, is read as one that is not enabled, while an empty
configuration enables it.
-/

namespace SqlPipeline.Manifest

open Json

variable {document omitted written value : Json} {name key : String} {place : Json → Json}
  {later : List String} {change : ManifestNode → ManifestNode}

/-- The fields of a node. -/
abbrev nodeFields : List String :=
  ["unique_id", "name", "resource_type", "package_name", "original_file_path", "checksum",
    "database", "schema", "alias", "config", "depends_on", "sources"]

/-- The fields of a manifest. -/
abbrev fields : List String := ["metadata", "nodes", "parent_map", "child_map"]

/-- A manifest whose node under a key leaves out a field, and the same manifest with a value in this
field of the node. The nodes behind it have the `later` keys. -/
inductive LeavesOut (name : String) (value : Json) (key : String) (later : List String) :
    Json → Json → Prop
  | node {omitted written : Json} {before after : List (String × Json)} {place : Json → Json}
      (omits : Omits nodeFields name value omitted written) (behind : after.map (·.1) = later)
      (nodes : IsField fields "nodes" place) :
      LeavesOut name value key later (place (object (before ++ (key, omitted) :: after)))
        (place (object (before ++ (key, written) :: after)))

/-- The manifest with the node under a key changed, if there is one. -/
def changeNode (key : String) (change : ManifestNode → ManifestNode) (manifest : Manifest) :
    Manifest :=
  { manifest with nodes := manifest.nodes.changeAt key change }

@[simp]
theorem changeNode_id (key : String) (manifest : Manifest) :
    manifest.changeNode key id = manifest := by
  rw [changeNode, NameMap.changeAt_id]

/-! ## Nodes -/

theorem dependsOnOfJson?_empty : dependsOnOfJson? (object []) = some [] := rfl

theorem configOfJson?_empty : configOfJson? (object []) = some (true, none) := rfl

theorem configOfJson?_disabled :
    configOfJson? (object [("enabled", bool false)]) = some (false, none) := rfl

/-- A node reads the same with no dependencies and with an empty section of dependencies. -/
theorem nodeOfJson?_dependsOn (omits : Omits nodeFields "depends_on" (object []) omitted written) :
    nodeOfJson? written = nodeOfJson? omitted := by
  refine omits.bind_eq (by decide) (by decide) false fun front back listed absent => ?_
  simp (disch := decide) only [Record.required?_of_ne, Record.withDefault?_of_ne]
  rw [Record.withDefault?_of_default absent fun _ => dependsOnOfJson?_empty]

/-- A node reads the same with no configuration and with one that disables it. -/
theorem nodeOfJson?_disabled
    (omits : Omits nodeFields "config" (object [("enabled", bool false)]) omitted written) :
    nodeOfJson? written = nodeOfJson? omitted := by
  refine omits.bind_eq (by decide) (by decide) false fun front back listed absent => ?_
  simp (disch := decide) only [Record.required?_of_ne, Record.withDefault?_of_ne]
  rw [Record.withDefault?_of_default absent fun _ => configOfJson?_disabled]

/-- The node, enabled. -/
def enable (node : ManifestNode) : ManifestNode := { node with enabled := true }

/-- An empty configuration enables a node. -/
theorem nodeOfJson?_config (omits : Omits nodeFields "config" (object []) omitted written) :
    nodeOfJson? written = (nodeOfJson? omitted).map enable := by
  refine omits.bind_eq_map (by decide) (by decide) false fun front back listed absent => ?_
  have before : "config" ∉ front.map (·.1) := fun there =>
    absent (List.map_append ▸ List.mem_append_left _ there)
  simp (disch := decide) only [Record.required?_of_ne, Record.withDefault?_of_ne]
  rw [Record.withDefault?_of_absent absent, Record.withDefault?_self before, configOfJson?_empty,
    Option.bind_eq_bind, Option.bind_some, Option.bind_eq_bind, Option.bind_some]
  -- The other fields are read alike, whatever they are.
  repeat refine bind_eq_map_bind fun _ => ?_
  rfl

/-- Without a configuration a node is not enabled. -/
theorem enabled_of_nodeOfJson? {result : ManifestNode}
    (omits : Omits nodeFields "config" value omitted written)
    (all : nodeOfJson? omitted = some result) : result.enabled = false := by
  have disabled : nodeOfJson? omitted =
      (nodeOfJson? omitted).map fun node => { node with enabled := false } := by
    rcases omits.exists_fields (by decide) (by decide) false with
      ⟨unread, -⟩ | ⟨front, back, listed, absent, fields, -⟩
    · rw [nodeOfJson?, unread]
      rfl
    · rw [nodeOfJson?, fields, Option.bind_eq_bind, Option.bind_some,
        Record.withDefault?_of_absent absent, Option.bind_eq_bind, Option.bind_some]
      repeat refine bind_eq_map_bind fun _ => ?_
      rfl
  rw [all, Option.map_some, Option.some.injEq] at disabled
  rw [disabled]

/-! ## Documents -/

/-- What is read from a manifest in whose place for nodes stands an object. -/
theorem ofJson?_nodes (nodes : IsField fields "nodes" place)
    {step : NameMap ManifestNode → NameMap ManifestNode}
    (same : map? nodeOfJson? written = (map? nodeOfJson? omitted).map step) :
    ofJson? (place written) = (ofJson? (place omitted)).map fun manifest =>
      { manifest with nodes := step manifest.nodes } := by
  refine nodes.bind_eq_map (by decide) (by decide) false fun front back listed absent => ?_
  simp (disch := decide) only [Record.required?_of_ne, Record.withDefault?_of_ne]
  rw [Record.required?_self absent, Record.required?_self absent, same]
  refine bind_eq_map_bind fun _ => ?_
  cases map? nodeOfJson? omitted with
  | none => rfl
  | some nodes =>
    rw [Option.map_some, Option.bind_eq_bind, Option.bind_some, Option.bind_eq_bind,
      Option.bind_some]
    repeat refine bind_eq_map_bind fun _ => ?_
    rfl

/-- The object in the place for nodes is read as the nodes of the manifest. -/
theorem map?_of_ofJson? {manifest : Manifest} (nodes : IsField fields "nodes" place)
    (all : ofJson? (place value) = some manifest) :
    map? nodeOfJson? value = some manifest.nodes := by
  rcases nodes.exists_fields (by decide) (by decide) false with
    unread | ⟨front, back, listed, absent, fields⟩
  · rw [ofJson?, unread] at all
    cases all
  · rw [ofJson?, fields] at all
    simp only [Option.bind_eq_bind, Option.bind_some, Record.required?_self absent,
      Option.bind_eq_some_iff, Option.some.injEq] at all
    obtain ⟨_, -, nodes, read, _, -, _, -, rfl⟩ := all
    exact read

/-- A manifest with a field more in one of its nodes is read as the one without it, with the node
changed as this field changes it, unless a later node has the same key. -/
theorem LeavesOut.ofJson?_eq (leaves : LeavesOut name value key later omitted written)
    (same : ∀ {omitted written}, Omits nodeFields name value omitted written →
      nodeOfJson? written = (nodeOfJson? omitted).map change) :
    ofJson? written = (ofJson? omitted).map fun manifest =>
      if key ∈ later then manifest else manifest.changeNode key change := by
  cases leaves with
  | node omits behind nodes =>
    rw [ofJson?_nodes nodes (map?_replace (same omits)), behind]
    congr
    funext manifest
    split <;> rfl

/-- A manifest is read alike with a field more in one of its nodes if the node is. -/
theorem LeavesOut.ofJson?_eq_of_same (leaves : LeavesOut name value key later omitted written)
    (same : ∀ {omitted written}, Omits nodeFields name value omitted written →
      nodeOfJson? written = nodeOfJson? omitted) : ofJson? written = ofJson? omitted := by
  have adapted : ∀ {omitted written}, Omits nodeFields name value omitted written →
      nodeOfJson? written = (nodeOfJson? omitted).map id := by
    intro omitted written omits
    rw [same omits, Option.map_id, id]
  simpa using leaves.ofJson?_eq adapted

/-- The node that leaves out its configuration is not enabled, unless a later node has the same
key. -/
theorem LeavesOut.enabled_eq {manifest : Manifest}
    (leaves : LeavesOut "config" value key later omitted written) (last : key ∉ later)
    (all : ofJson? omitted = some manifest) :
    ∃ node, manifest.nodes.get? key = some node ∧ node.enabled = false := by
  cases leaves with
  | node omits behind nodes =>
    subst behind
    obtain ⟨node, read, found⟩ := get?_of_map?_append_cons (map?_of_ofJson? nodes all) last
    exact ⟨node, found, enabled_of_nodeOfJson? omits read⟩

/-- Enabling the node that leaves out its configuration makes another manifest, unless a later node
has the same key. -/
theorem LeavesOut.changeNode_enable_ne {manifest : Manifest}
    (leaves : LeavesOut "config" value key later omitted written) (last : key ∉ later)
    (all : ofJson? omitted = some manifest) : manifest.changeNode key enable ≠ manifest := by
  obtain ⟨node, found, disabled⟩ := leaves.enabled_eq last all
  intro same
  have nodes : (manifest.nodes.changeAt key enable).get? key = some node := by
    rw [← found]
    exact congrArg (fun other : Manifest => other.nodes.get? key) same
  rw [NameMap.get?_changeAt, found, Option.map_some, if_pos rfl, Option.some.injEq] at nodes
  have enabled : (enable node).enabled = false := nodes ▸ disabled
  cases enabled

/-! ## Texts -/

theorem parse_of_read? {text : String} (read : Json.read? text = some document) :
    parse text = (ofJson? document).elim (.error .malformed) .ok := by
  rw [parse, read, Option.bind_some]
  cases ofJson? document <;> rfl

end SqlPipeline.Manifest
