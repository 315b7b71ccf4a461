import SqlPipeline.Proofs.Json.Reading
import SqlPipeline.Proofs.Model.Omission
import SqlPipeline.Proofs.Settings.Omission
import SqlPipeline.Proofs.Toml.Values

/-!
# Sections left out

Sections of settings, and the dependencies of the nodes of a manifest, may be left out: the texts
are read as if empty sections stood there.  The configuration of a node is the exception.  Without
one a node is read as it is with one that disables it, whereas an empty configuration enables it; so
the manifests that are read are the same only if the node does not count, because a later one has
its key, or if they are malformed.
-/

namespace SqlPipeline

open Json (object)

/-- A text of a manifest without the dependencies of a node is read as with an empty section of
dependencies.  A text without the configuration of a node is read as with one that disables the
node, and with an empty configuration as the same manifest with just this node enabled.  A text of
settings without a section or a policy of relations is read as with an empty one. -/
theorem left_out_sections_read_empty {omitted written : String} :
    (∀ {document other : Json} {key : String} {later : List String},
      Json.read? omitted = some document → Json.read? written = some other →
      (Manifest.LeavesOut "depends_on" (object []) key later document other →
        Manifest.parse written = Manifest.parse omitted) ∧
      (Manifest.LeavesOut "config" (object [("enabled", .bool false)]) key later document other →
        Manifest.parse written = Manifest.parse omitted) ∧
      (Manifest.LeavesOut "config" (object []) key later document other →
        (Manifest.parse written = Manifest.parse omitted ↔
          key ∈ later ∨ Manifest.parse omitted = .error .malformed) ∧
        (key ∉ later →
          Manifest.parse written =
            (Manifest.parse omitted).map (·.changeNode key Manifest.enable)))) ∧
    ∀ {root : String} {document other : Toml},
      Toml.parse? omitted = some document → Toml.parse? written = some other →
      Settings.LeavesOut document.toJson other.toJson →
        Settings.parse root written = Settings.parse root omitted := by
  refine ⟨fun {document other key later} readOmitted readWritten => ?_,
    fun readOmitted readWritten leaves =>
      Settings.parse_eq_of_leavesOut readOmitted readWritten leaves⟩
  rw [Manifest.parse_of_read? readOmitted, Manifest.parse_of_read? readWritten]
  refine ⟨fun leaves => ?_, fun leaves => ?_, fun leaves => ?_⟩
  · rw [leaves.ofJson?_eq_of_same Manifest.nodeOfJson?_dependsOn]
  · rw [leaves.ofJson?_eq_of_same Manifest.nodeOfJson?_disabled]
  · have same := leaves.ofJson?_eq Manifest.nodeOfJson?_config
    by_cases overridden : key ∈ later
    · simp only [overridden, if_true, Option.map_id'] at same
      rw [same]
      exact ⟨iff_of_true rfl (.inl overridden), fun last => absurd overridden last⟩
    · simp only [overridden, if_false] at same
      rw [same]
      cases all : Manifest.ofJson? document with
      | none => exact ⟨iff_of_true rfl (.inr rfl), fun _ => rfl⟩
      | some manifest =>
        have differ := leaves.changeNode_enable_ne overridden all
        refine ⟨iff_of_false (fun alike => differ (Except.ok.inj alike)) ?_, fun _ => rfl⟩
        rintro (later | malformed)
        · exact overridden later
        · cases malformed

/-- A manifest of two models, the first of them with further fields. -/
def shop (sections : List (String × Json)) : Json :=
  object [
    ("metadata", object [
      ("schema_version", .string "v1"), ("generated_at", .string "t"),
      ("project_name", .string "shop")]),
    ("nodes", object [("a", model "a" sections), ("b", model "b" [])])]
where
  /-- A model with further fields. -/
  model (name : String) (sections : List (String × Json)) : Json :=
    object ([
      ("unique_id", .string name), ("name", .string name), ("resource_type", .string "model"),
      ("package_name", .string "shop"), ("original_file_path", .string "a.sql"),
      ("checksum", .string "")] ++ sections)

theorem leavesOut_shop {name : String} (value : Json)
    (absent : name ∉ ["unique_id", "name", "resource_type", "package_name", "original_file_path",
      "checksum"]) :
    Manifest.LeavesOut name value "a" ["b"] (shop []) (shop [(name, value)]) := by
  have omits : Json.Omits Manifest.nodeFields name value (shop.model "a" [])
      (shop.model "a" [(name, value)]) :=
    .member absent
  exact @Manifest.LeavesOut.node _ _ _ _ _ _ [] [("b", shop.model "b" [])] _ omits rfl
    (.member [("metadata", _)] [])

theorem read?_pretty_shop {sections : List (String × Json)}
    (reads : ∀ field ∈ sections, field.2.AllNumbers Json.Number.ReadsBack) :
    Json.read? (Json.pretty (shop sections)) = some (shop sections) := by
  refine Json.read?_pretty ?_
  simpa [shop, shop.model] using reads

/-- A node without dependencies, a node without a configuration, and settings with one of two
policies. -/
theorem left_out_sections_read_empty_shop :
    Manifest.parse (Json.pretty (shop [("depends_on", object [])])) =
        Manifest.parse (Json.pretty (shop [])) ∧
      Manifest.parse (Json.pretty (shop [("config", object [("enabled", .bool false)])])) =
        Manifest.parse (Json.pretty (shop [])) ∧
      Manifest.parse (Json.pretty (shop [("config", object [])])) =
        (Manifest.parse (Json.pretty (shop []))).map (·.changeNode "a" Manifest.enable) ∧
      Settings.parse "" "[relation.include_policy]\n[relation.quote_policy]\ndatabase = false\n" =
        Settings.parse "" "[relation.quote_policy]\ndatabase = false\n" := by
  have bare : Json.read? (Json.pretty (shop [])) = some (shop []) := read?_pretty_shop (by simp)
  refine ⟨?_, ?_, ?_, ?_⟩
  · exact (left_out_sections_read_empty.1 bare (read?_pretty_shop (by simp))).1
      (leavesOut_shop _ (by decide))
  · exact (left_out_sections_read_empty.1 bare (read?_pretty_shop (by simp))).2.1
      (leavesOut_shop _ (by decide))
  · exact ((left_out_sections_read_empty.1 bare (read?_pretty_shop (by simp))).2.2
      (leavesOut_shop _ (by decide))).2 (by decide)
  · have quoted : (Toml.parse? "[relation.quote_policy]\ndatabase = false\n").map Toml.toJson =
        some (object [("relation", object [
          ("quote_policy", object [("database", .bool false)])])]) := by
      decide +kernel
    have both : (Toml.parse?
        "[relation.include_policy]\n[relation.quote_policy]\ndatabase = false\n").map Toml.toJson =
        some (object [("relation", object [("include_policy", object []),
          ("quote_policy", object [("database", .bool false)])])]) := by
      decide +kernel
    obtain ⟨document, readOmitted, json⟩ := Option.map_eq_some_iff.mp quoted
    obtain ⟨other, readWritten, json'⟩ := Option.map_eq_some_iff.mp both
    refine left_out_sections_read_empty.2 readOmitted readWritten ?_
    have omits : Json.Omits Settings.policies "include_policy" (object [])
        (object [("quote_policy", object [("database", .bool false)])])
        (object [("include_policy", object []),
          ("quote_policy", object [("database", .bool false)])]) :=
      @Json.Omits.member _ _ _ [] _ (by decide)
    rw [json, json']
    exact .ofPolicy (by decide) omits (.member [] [])

/-- A model with an empty configuration is enabled, and without one it is not. -/
theorem empty_configuration_enables :
    Manifest.LeavesOut "config" (object []) "a" ["b"] (shop []) (shop [("config", object [])]) ∧
      Manifest.parse (Json.pretty (shop [("config", object [])])) ≠
        Manifest.parse (Json.pretty (shop [])) := by
  refine ⟨leavesOut_shop _ (by decide), ?_⟩
  rw [Manifest.parse_of_read? (read?_pretty_shop (by simp)),
    Manifest.parse_of_read? (read?_pretty_shop (by simp))]
  decide +kernel

end SqlPipeline
