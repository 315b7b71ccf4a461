import SqlPipeline.Proofs.Json.Omission
import SqlPipeline.Settings

/-!
# Sections left out of settings

A section that is left out of the settings is read as an empty one: what a section denotes without
any of its fields is the default of the section.
-/

namespace SqlPipeline.Settings

open Json

variable {omitted written : Json} {surplus : Bool} {name root : String} {place : Json → Json}

/-- The fields of settings. -/
abbrev fields : List String :=
  ["name", "model_paths", "target_path", "target", "models", "relation", "run", "vars"]

/-- The fields of settings that are sections. -/
abbrev sections : List String := ["target", "models", "relation", "run", "vars"]

/-- The policies of relations. -/
abbrev policies : List String := ["include_policy", "quote_policy"]

/-- Settings that leave out a section or a policy of relations, and the same settings with an empty
one. -/
inductive LeavesOut : Json → Json → Prop
  | ofSection {name : String} {omitted written : Json} (listed : name ∈ sections)
      (omits : Omits fields name (object []) omitted written) : LeavesOut omitted written
  | ofPolicy {name : String} {omitted written : Json} {place : Json → Json}
      (listed : name ∈ policies) (omits : Omits policies name (object []) omitted written)
      (relation : IsField fields "relation" place) : LeavesOut (place omitted) (place written)

/-! ## Empty sections -/

theorem policyOfJson?_empty : policyOfJson? surplus (object []) = some .all := rfl

theorem targetOfJson?_empty : targetOfJson? surplus (object []) = some defaultTarget := rfl

theorem modelsOfJson?_empty : modelsOfJson? surplus (object []) = some "view" := rfl

theorem relationOfJson?_empty : relationOfJson? surplus (object []) = some (.all, .all) := rfl

theorem runOfJson?_empty : runOfJson? surplus (object []) = some defaultRun := rfl

theorem varsOfJson?_empty : varsOfJson? (object []) = some .empty := rfl

/-! ## Reading -/

/-- A policy that is left out sets all flags, as an empty one does. -/
theorem relationOfJson?_policy (listed : name ∈ policies)
    (omits : Omits policies name (object []) omitted written) :
    relationOfJson? surplus written = relationOfJson? surplus omitted := by
  refine omits.bind_eq (by decide) listed surplus fun front back listed absent => ?_
  rw [Record.withDefault?_of_default absent fun _ => policyOfJson?_empty,
    Record.withDefault?_of_default absent fun _ => policyOfJson?_empty]

/-- Settings are read alike with an empty section and without it. -/
theorem ofJson?_section (listed : name ∈ sections)
    (omits : Omits fields name (object []) omitted written) :
    ofJson? surplus root written = ofJson? surplus root omitted := by
  have known : sections ⊆ fields := by decide
  refine omits.bind_eq (by decide) (known listed) surplus fun front back _ absent => ?_
  have apart : ∀ key ∉ sections, key ≠ name := fun key other same => other (same ▸ listed)
  rw [Record.withDefault?_of_ne (apart "name" (by decide)),
    Record.withDefault?_of_ne (apart "model_paths" (by decide)),
    Record.withDefault?_of_ne (apart "target_path" (by decide)),
    Record.withDefault?_of_default absent fun _ => targetOfJson?_empty,
    Record.withDefault?_of_default absent fun _ => modelsOfJson?_empty,
    Record.withDefault?_of_default absent fun _ => relationOfJson?_empty,
    Record.withDefault?_of_default absent fun _ => runOfJson?_empty,
    Record.withDefault?_of_default absent fun _ => varsOfJson?_empty]

/-- Settings are read alike with sections of relations that are. -/
theorem ofJson?_relation (relation : IsField fields "relation" place)
    (same : relationOfJson? surplus written = relationOfJson? surplus omitted) :
    ofJson? surplus root (place written) = ofJson? surplus root (place omitted) := by
  refine relation.bind_eq (by decide) (by decide) surplus fun front back _ absent => ?_
  simp (disch := decide) only [Record.withDefault?_of_ne]
  rw [Record.withDefault?_self absent, Record.withDefault?_self absent, same]

/-- Settings are read alike with an empty section or policy and without it. -/
theorem LeavesOut.ofJson?_eq (leaves : LeavesOut omitted written) :
    ofJson? surplus root written = ofJson? surplus root omitted := by
  cases leaves with
  | ofSection listed omits => exact ofJson?_section listed omits
  | ofPolicy listed omits relation =>
    exact ofJson?_relation relation (relationOfJson?_policy listed omits)

/-- Texts of settings are read alike if their documents leave out sections only. -/
theorem parse_eq_of_leavesOut {omittedText writtenText : String} {document other : Toml}
    (readOmitted : Toml.parse? omittedText = some document)
    (readWritten : Toml.parse? writtenText = some other)
    (leaves : LeavesOut document.toJson other.toJson) :
    parse root writtenText = parse root omittedText := by
  rw [parse, parse, readOmitted, readWritten]
  show ofToml root other = ofToml root document
  rw [ofToml, ofToml, leaves.ofJson?_eq]

end SqlPipeline.Settings
