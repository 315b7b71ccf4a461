import SqlPipeline.Model.Manifest
import SqlPipeline.Proofs.Files.Writing
import SqlPipeline.Proofs.Json.Record

/-!
# Manifests as JSON

A manifest is read back from the JSON that is written for it, record by record.
-/

namespace SqlPipeline.Manifest

open Json

theorem metadataOfJson?_object (metadata : ManifestMetadata) :
    metadataOfJson? (.object [
      ("schema_version", .string metadata.schemaVersion),
      ("generated_at", .string metadata.generatedAt),
      ("project_name", .string metadata.projectName),
      ("target_name", .string metadata.targetName)]) = some metadata := by
  rw [metadataOfJson?, Record.read?_object]
  · rfl
  · exact List.Sublist.refl _
  · decide

theorem configOfJson?_object (enabled : Bool) (materialized : Option String) :
    configOfJson? (.object [
      ("enabled", .bool enabled), ("materialized", .nullable .string materialized)]) =
      some (enabled, materialized) := by
  rw [configOfJson?, Record.read?_object]
  · simp [Record.withDefault?, List.lookup_cons]
  · exact List.Sublist.refl _
  · decide

theorem dependsOnOfJson?_object (ids : List String) :
    dependsOnOfJson? (.object [("nodes", .strings ids)]) = some ids := by
  rw [dependsOnOfJson?, Record.read?_object]
  · exact texts?_strings ids
  · exact List.Sublist.refl _
  · decide

theorem sourceOfJson?_strings (source : String × String) :
    sourceOfJson? (.strings [source.1, source.2]) = some source := by
  rw [sourceOfJson?, texts?_strings]

/-- A node is read back. -/
theorem nodeOfJson?_nodeToJson (node : ManifestNode) :
    nodeOfJson? (nodeToJson node) = some node := by
  have sources : list? sourceOfJson?
      (.array (node.sources.map fun source => .strings [source.1, source.2])) = some node.sources :=
    list?_map fun source _ => sourceOfJson?_strings source
  rw [nodeOfJson?, nodeToJson, Record.read?_object]
  · simp [Record.withDefault?, Record.required?, List.lookup_cons, configOfJson?_object,
      dependsOnOfJson?_object, sources]
  · exact List.Sublist.refl _
  · decide

/-- A manifest is read back. -/
theorem ofJson?_toJson (manifest : Manifest) : ofJson? manifest.toJson = some manifest := by
  have nodes : map? nodeOfJson? (.ofMap nodeToJson manifest.nodes) = some manifest.nodes :=
    map?_ofMap fun entry _ => nodeOfJson?_nodeToJson entry.2
  have texts : ∀ map : NameMap (List String), map? texts? (.ofMap .strings map) = some map :=
    fun map => map?_ofMap fun entry _ => texts?_strings entry.2
  rw [ofJson?, toJson, Record.read?_object]
  · simp [Record.withDefault?, Record.required?, List.lookup_cons, metadataOfJson?_object, nodes,
      texts]
  · exact List.Sublist.refl _
  · decide

/-- There are no numbers in a manifest. -/
theorem allNumbers_toJson (p : Json.Number → Prop) (manifest : Manifest) :
    AllNumbers p manifest.toJson := by
  have node : ∀ node, AllNumbers p (nodeToJson node) := by
    intro node
    have sources : AllNumbers p
        (.array (node.sources.map fun source => .strings [source.1, source.2])) :=
      allNumbers_map fun source _ => allNumbers_strings _
    simp [nodeToJson, sources]
  have nodes : AllNumbers p (.ofMap nodeToJson manifest.nodes) :=
    allNumbers_ofMap fun entry _ => node entry.2
  have texts : ∀ map : NameMap (List String), AllNumbers p (.ofMap .strings map) :=
    fun map => allNumbers_ofMap fun entry _ => allNumbers_strings entry.2
  simp [toJson, nodes, texts]

/-- A manifest is read back from its text. -/
theorem parse_print (manifest : Manifest) : parse manifest.print = .ok manifest := by
  rw [parse, print, read?_pretty (allNumbers_toJson _ manifest), Option.bind_some, ofJson?_toJson]

/-- The file that a manifest is saved to holds its text. -/
theorem read_of_save {manifest : Manifest} {tree saved : FileTree} {path : String}
    (run : manifest.save tree path = .ok saved) : saved.read path = .ok manifest.print := by
  rw [save] at run
  split at run
  · exact FileTree.read_write (mapError_eq_ok_iff.mp run)
  · obtain ⟨parents, -, written⟩ := bind_eq_ok_iff.mp run
    exact FileTree.read_write (mapError_eq_ok_iff.mp written)

end SqlPipeline.Manifest
