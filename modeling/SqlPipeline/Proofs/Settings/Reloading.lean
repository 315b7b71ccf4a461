import SqlPipeline.Proofs.Files.Writing
import SqlPipeline.Proofs.Settings.Reading
import SqlPipeline.Proofs.Toml.Reading

/-!
# Reloading saved settings

Settings that were accepted and saved load again as the same settings.  A document may list its
entries in any order: the printer puts plain entries before sections, and every record and map is
read in the same way from both orders.  Variables are kept as JSON, which has no infinite and no
undefined number, and these are what keeps accepted settings from being saved.
-/

namespace SqlPipeline.Settings

open Json

variable {surplus : Bool} {settings : Settings} {other : Json} {root text : String}

/-! ## The sections of the settings -/

theorem reads_policy (policy : Policy) :
    Reads (policyOfJson? surplus) (policyToJson policy) policy := by
  intro other toml same
  obtain ⟨record, read, holds⟩ := exists_record (by simp) toml same surplus
    ["database", "schema", "identifier"]
  rw [policyOfJson?, read]
  simp [holds.withDefault?_some "database" (by simp) rfl (reads_bool policy.database),
    holds.withDefault?_some "schema" (by simp) rfl (reads_bool policy.schema),
    holds.withDefault?_some "identifier" (by simp) rfl (reads_bool policy.identifier)]

/-- A target, without its database if there is none. -/
def targetMembers (target : TargetSettings) : List (String × Json) :=
  [("name", .string target.name)] ++ optionalMember "database" .string target.database
    ++ [("schema", .string target.schema), ("threads", .nat target.threads)]

theorem keys_targetMembers (target : TargetSettings) :
    ((targetMembers target).map (·.1)).Sublist ["name", "database", "schema", "threads"] := by
  simp only [targetMembers, List.map_append]
  exact ((List.Sublist.refl ["name"]).append (sublist_optionalMember "database" _ _)).append
    (List.Sublist.refl ["schema", "threads"])

theorem reads_target {target : TargetSettings} (small : target.threads < Nat.pow 2 64) :
    Reads (targetOfJson? surplus) (.object (targetMembers target)) target := by
  intro other toml same
  have distinct := (keys_targetMembers target).nodup (by decide)
  obtain ⟨record, read, holds⟩ := exists_record distinct toml same surplus
    ["name", "database", "schema", "threads"]
  have database : optionalText? record "database" = some target.database := by
    cases missing : target.database with
    | none =>
      have absent : (targetMembers target).lookup "database" = none := by
        simp [targetMembers, missing, optionalMember, List.lookup_cons]
      exact holds.withDefault?_none _ (by simp) absent
    | some database =>
      have present : (targetMembers target).lookup "database" = some (.string database) := by
        simp [targetMembers, missing, optionalMember, List.lookup_cons]
      exact holds.withDefault?_some _ (by simp) present (reads_nullable_text database)
  have schema : (targetMembers target).lookup "schema" = some (.string target.schema) := by
    simp [targetMembers, List.lookup_append, List.lookup_cons]
  have threads : (targetMembers target).lookup "threads" = some (.nat target.threads) := by
    simp [targetMembers, List.lookup_append, List.lookup_cons]
  rw [targetOfJson?, read]
  simp [database, holds.withDefault?_some "name" (by simp) rfl (reads_text target.name),
    holds.withDefault?_some "schema" (by simp) schema (reads_text target.schema),
    holds.withDefault?_some "threads" (by simp) threads (reads_nat small)]

theorem reads_models (materialized : String) :
    Reads (modelsOfJson? surplus) (.object [("materialized", .string materialized)])
      materialized := by
  intro other toml same
  obtain ⟨record, read, holds⟩ := exists_record (by simp) toml same surplus ["materialized"]
  rw [modelsOfJson?, read]
  exact holds.withDefault?_some _ (by simp) rfl (reads_text materialized)

theorem reads_relation (included quoted : Policy) :
    Reads (relationOfJson? surplus) (.object [
      ("include_policy", policyToJson included), ("quote_policy", policyToJson quoted)])
      (included, quoted) := by
  intro other toml same
  obtain ⟨record, read, holds⟩ := exists_record (by simp) toml same surplus
    ["include_policy", "quote_policy"]
  rw [relationOfJson?, read]
  simp [holds.withDefault?_some "include_policy" (by simp) rfl (reads_policy included),
    holds.withDefault?_some "quote_policy" (by simp) rfl (reads_policy quoted)]

theorem reads_run (run : RunSettings) :
    Reads (runOfJson? surplus) (.object [
      ("fail_fast", .bool run.failFast),
      ("result_writer", .string run.resultWriter),
      ("notify", .strings run.notify)]) run := by
  intro other toml same
  obtain ⟨record, read, holds⟩ := exists_record (by simp) toml same surplus
    ["fail_fast", "result_writer", "notify"]
  rw [runOfJson?, read]
  simp [holds.withDefault?_some "fail_fast" (by simp) rfl (reads_bool run.failFast),
    holds.withDefault?_some "result_writer" (by simp) rfl (reads_text run.resultWriter),
    holds.withDefault?_some "notify" (by simp) rfl (reads_texts run.notify)]

theorem varsOfJson?_object (members : List (String × Json)) :
    varsOfJson? (.object members) = some (canonicalMap members) := by
  have each : (members.mapM fun member => some (member.1, canonical member.2)) =
      some (members.map fun member => (member.1, canonical member.2)) := List.mapM_pure
  exact congrArg (·.bind fun entries => some (NameMap.ofList entries)) each

/-- Variables are kept in canonical form. -/
theorem ofMap_of_varsOfJson? {vars : NameMap Json} (read : varsOfJson? other = some vars) :
    .ofMap id vars = other.canonical := by
  cases other with
  | object members =>
    rw [varsOfJson?_object] at read
    cases read
    exact (congrArg object (List.map_id _)).trans (canonical_object members).symm
  | _ => cases read

/-- Variables in canonical form are read back. -/
theorem reads_vars {vars : NameMap Json}
    (fixed : (Json.ofMap id vars).canonical = .ofMap id vars) :
    Reads varsOfJson? (.ofMap id vars) vars := by
  intro other toml same
  obtain ⟨others, rfl, -, -, alike⟩ := exists_object toml same
  have kept : (canonicalMap (vars.entries.map fun entry => (entry.1, id entry.2))).entries =
      vars.entries := by
    rw [ofMap, canonical_object] at fixed
    exact (Json.object.inj fixed).trans (List.map_id _)
  rw [varsOfJson?_object, alike]
  exact congrArg some (NameMap.ext_get? fun key => congrArg (List.lookup key) kept)

/-! ## Settings -/

/-- The members of the document that settings are written as. -/
def members (settings : Settings) : List (String × Json) := [
  ("name", .string settings.name),
  ("model_paths", .strings settings.modelPaths),
  ("target_path", .string settings.targetPath),
  ("target", .object (targetMembers settings.target)),
  ("models", .object [("materialized", .string settings.materialized)]),
  ("relation", .object [
    ("include_policy", policyToJson settings.included),
    ("quote_policy", policyToJson settings.quoted)]),
  ("run", .object [
    ("fail_fast", .bool settings.run.failFast),
    ("result_writer", .string settings.run.resultWriter),
    ("notify", .strings settings.run.notify)]),
  ("vars", .ofMap id settings.vars)]

theorem toToml?_eq (settings : Settings) :
    settings.toToml? = Toml.ofJsonMembers? settings.members := rfl

/-- Settings that a document can hold. -/
structure IsStorable (settings : Settings) : Prop where
  threads : settings.target.threads < Nat.pow 2 63
  vars : (Json.ofMap id settings.vars).canonical = .ofMap id settings.vars

/-- Settings are read back from each document that has the same entries in any order. -/
theorem reads_settings (storable : settings.IsStorable) :
    Reads (ofJson? surplus root) (.object settings.members) { settings with root } := by
  intro other toml same
  obtain ⟨record, read, holds⟩ := exists_record (by simp [members]) toml same surplus
    ["name", "model_paths", "target_path", "target", "models", "relation", "run", "vars"]
  have small : settings.target.threads < Nat.pow 2 64 := by
    have bound := storable.threads
    rw [Nat.pow_eq] at *
    omega
  rw [ofJson?, read]
  simp [holds.withDefault?_some "name" (by simp) rfl (reads_text settings.name),
    holds.withDefault?_some "model_paths" (by simp) rfl (reads_texts settings.modelPaths),
    holds.withDefault?_some "target_path" (by simp) rfl (reads_text settings.targetPath),
    holds.withDefault?_some "target" (by simp) rfl (reads_target small),
    holds.withDefault?_some "models" (by simp) rfl (reads_models settings.materialized),
    holds.withDefault?_some "relation" (by simp) rfl
      (reads_relation settings.included settings.quoted),
    holds.withDefault?_some "run" (by simp) rfl (reads_run settings.run),
    holds.withDefault?_some "vars" (by simp) rfl (reads_vars storable.vars)]

/-! ## Accepted settings -/

theorem isToml_of_read? {names : List String} {record : Record} (toml : other.IsToml)
    (read : Record.read? surplus names other = some record) :
    ∀ field ∈ record.fields, field.2.IsToml := by
  cases toml with
  | @object members distinct each =>
    rw [Record.read?] at read
    split at read
    · cases read
      exact fun field member => each field (List.mem_filter.mp member).1
    · cases read
  | @array items each =>
    rw [Record.read?] at read
    split at read
    · cases read
      exact fun field member => each _ (List.of_mem_zip member).2
    · cases read
  | bool => cases read
  | integer => cases read
  | real => cases read
  | string => cases read

theorem withDefault?_eq_some {α : Type} {record : Record} {name : String} {default result : α}
    {read : Json → Option α} (found : record.withDefault? name default read = some result) :
    record.fields.lookup name = none ∧ result = default ∨
      ∃ value, record.fields.lookup name = some value ∧ read value = some result := by
  rw [Record.withDefault?] at found
  split at found
  next value field => exact .inr ⟨value, field, found⟩
  next absent => exact .inl ⟨absent, (Option.some.inj found).symm⟩

theorem lt_of_nat? {n : Nat} (toml : other.IsToml) (read : nat? other = some n) :
    n < Nat.pow 2 63 := by
  cases toml with
  | integer least greatest =>
    rw [nat?, natBelow?] at read
    split at read
    · cases read
      omega
    · cases read
  | bool => cases read
  | real => cases read
  | string => cases read
  | array => cases read
  | object => cases read

theorem threads_of_targetOfJson? {target : TargetSettings} (toml : other.IsToml)
    (read : targetOfJson? surplus other = some target) : target.threads < Nat.pow 2 63 := by
  simp only [targetOfJson?, Option.bind_eq_bind, Option.bind_eq_some_iff] at read
  obtain ⟨record, fields, name, -, database, -, schema, -, threads, found, same⟩ := read
  cases same
  rcases withDefault?_eq_some found with ⟨-, rfl⟩ | ⟨value, field, number⟩
  · exact (by decide : defaultTarget.threads < Nat.pow 2 63)
  · exact lt_of_nat? (isToml_of_read? toml fields _ (NameMap.mem_of_lookup field)) number

/-- The fields of a record that is read from a table are those entries that the record names. -/
theorem lookup_of_read?_table {entries : List (String × Toml)} {names : List String}
    {record : Record} {name : String}
    (read : Record.read? surplus names (Toml.table entries).toJson = some record)
    (known : name ∈ names) :
    record.fields.lookup name = (entries.lookup name).map Toml.toJson := by
  rw [Toml.toJson, Record.read?] at read
  split at read
  · cases read
    rw [lookup_filter_contains _ known, Toml.lookup_toJsonMembers]
  · cases read

/-- The variables in the entries of a document. -/
def varsIn (entries : List (String × Toml)) : Toml := (entries.lookup "vars").getD (.table [])

/-- What accepted settings keep of a document: a count of threads, and the variables in canonical
form. -/
theorem of_ofJson?_table {entries : List (String × Toml)}
    (toml : (Toml.table entries).toJson.IsToml)
    (read : ofJson? surplus root (Toml.table entries).toJson = some settings) :
    settings.target.threads < Nat.pow 2 63 ∧ (varsIn entries).toJson.IsToml ∧
      .ofMap id settings.vars = (varsIn entries).toJson.canonical := by
  simp only [ofJson?, Option.bind_eq_bind, Option.bind_eq_some_iff] at read
  obtain ⟨record, fields, relation, -, name, -, paths, -, path, -, target, targetFound, models, -,
    run, -, vars, varsFound, same⟩ := read
  cases same
  constructor
  · rcases withDefault?_eq_some targetFound with ⟨-, rfl⟩ | ⟨value, field, section_⟩
    · exact (by decide : defaultTarget.threads < Nat.pow 2 63)
    · exact threads_of_targetOfJson?
        (isToml_of_read? toml fields _ (NameMap.mem_of_lookup field)) section_
  · have kept : record.fields.lookup "vars" = (entries.lookup "vars").map Toml.toJson :=
      lookup_of_read?_table fields (by simp)
    rw [varsIn]
    rcases withDefault?_eq_some varsFound with ⟨absent, rfl⟩ | ⟨value, field, read⟩
    · rw [absent, eq_comm, Option.map_eq_none_iff] at kept
      rw [kept]
      exact ⟨.object List.nodup_nil (by simp [Toml.toJsonMembers]), rfl⟩
    · have toml := isToml_of_read? toml fields _ (NameMap.mem_of_lookup field)
      rw [field, eq_comm, Option.map_eq_some_iff] at kept
      obtain ⟨vars, found, rfl⟩ := kept
      rw [found, Option.getD_some]
      exact ⟨toml, ofMap_of_varsOfJson? read⟩

theorem isStorable_of_ofJson?_table {entries : List (String × Toml)}
    (toml : (Toml.table entries).toJson.IsToml)
    (read : ofJson? surplus root (Toml.table entries).toJson = some settings) :
    settings.IsStorable := by
  obtain ⟨threads, vars, kept⟩ := of_ofJson?_table toml read
  exact ⟨threads, by rw [kept, canonical_canonical vars]⟩

theorem isSome_ofJson?_strings (texts : List String) :
    (Toml.ofJson? (.strings texts)).isSome = true := by
  rw [strings, Toml.ofJson?, Option.isSome_map, Toml.isSome_ofJsonItems?_iff]
  exact List.forall_mem_map.mpr fun text _ => rfl

theorem isSome_ofJson?_target {target : TargetSettings} (threads : target.threads < Nat.pow 2 63) :
    (Toml.ofJson? (.object (targetMembers target))).isSome = true := by
  have count : (Toml.ofJson? (.nat target.threads)).isSome = true := by
    rw [nat, int, Toml.ofJson?, if_pos (by omega)]
    rfl
  have database : ∀ member ∈ optionalMember "database" Json.string target.database,
      (Toml.ofJson? member.2).isSome = true := by
    cases target.database <;> simp [optionalMember, Toml.ofJson?]
  rw [Toml.isSome_ofJson?_object_iff]
  simp only [targetMembers, List.forall_mem_append, List.forall_mem_cons]
  exact ⟨⟨⟨rfl, by simp⟩, database⟩, rfl, count, by simp⟩

/-- Settings can be written just if their variables can. -/
theorem isSome_toToml?_iff (threads : settings.target.threads < Nat.pow 2 63) :
    settings.toToml?.isSome = true ↔ (Toml.ofJson? (.ofMap id settings.vars)).isSome = true := by
  have run : (Toml.ofJson? (.object [
      ("fail_fast", .bool settings.run.failFast),
      ("result_writer", .string settings.run.resultWriter),
      ("notify", .strings settings.run.notify)])).isSome = true := by
    rw [Toml.isSome_ofJson?_object_iff]
    simp only [List.forall_mem_cons]
    exact ⟨rfl, rfl, isSome_ofJson?_strings _, by simp⟩
  rw [toToml?_eq, Toml.isSome_ofJsonMembers?_iff]
  simp only [members, List.forall_mem_cons]
  constructor
  · rintro ⟨-, -, -, -, -, -, -, vars, -⟩
    exact vars
  · intro vars
    exact ⟨rfl, isSome_ofJson?_strings _, rfl, isSome_ofJson?_target threads, rfl, rfl, run, vars,
      by simp⟩

/-! ## Files -/

variable {accepted : Settings} {document entries : List (String × Toml)}

theorem validate_eq_ok_iff : settings.validate = .ok accepted ↔
    settings.target.threads ≠ 0 ∧ settings.name.isEmpty = false ∧ accepted = settings := by
  rw [validate]
  split
  next zero => simp [zero]
  next some =>
    split
    next empty => simp [empty]
    next named => simp [some, named, eq_comm]

/-- Settings that a faithful document holds are read back from its text. -/
theorem parse_print (storable : settings.IsStorable) (valid : settings.validate = .ok settings)
    (written : settings.toToml? = some document) (faithful : Toml.ReadsBack document)
    (root : String) : parse root (Toml.print document) = .ok { settings with root } := by
  obtain ⟨read, parsed, same⟩ := faithful
  have members : (Toml.table document).toJson = .object settings.members := by
    rw [Toml.toJson, Toml.toJsonMembers_of_ofJsonMembers? (toToml?_eq settings ▸ written)]
  rw [members] at same
  have back := @reads_settings true settings root storable read.toJson
    (Toml.isToml_parse? parsed) same
  obtain ⟨threads, name, -⟩ := validate_eq_ok_iff.mp valid
  rw [parse, parsed]
  dsimp only
  rw [ofToml, back]
  exact validate_eq_ok_iff.mpr ⟨threads, name, rfl⟩

/-- Accepted settings come from the table of a document. -/
theorem exists_table_of_parse (accepted : parse root text = .ok settings) :
    ∃ entries, Toml.parse? text = some (.table entries) ∧
      ofJson? true root (Toml.table entries).toJson = some settings ∧
      settings.validate = .ok settings := by
  rw [parse] at accepted
  split at accepted
  next document parsed =>
    obtain ⟨lines, -, read⟩ := Option.bind_eq_some_iff.mp parsed
    obtain ⟨drafts, -, read⟩ := Option.bind_eq_some_iff.mp read
    cases read
    rw [ofToml] at accepted
    split at accepted
    next read valid found =>
      obtain ⟨threads, name, rfl⟩ := validate_eq_ok_iff.mp accepted
      exact ⟨_, parsed, found, accepted⟩
    next => cases accepted
  next => cases accepted

/-- Settings are written to a file as the file system lets them be, or not at all. -/
theorem save_eq (settings : Settings) (tree : FileTree) (path : String) :
    settings.save tree path = match settings.toToml? with
      | some document => (tree.write path (Toml.print document)).mapError .io
      | none => .error .inexpressible := by
  rw [save, print]
  cases settings.toToml? with
  | none => rfl
  | some document =>
    cases written : tree.write path (Toml.print document) <;>
      simp [bind, Except.bind, written, Except.mapError]

/-- Accepted settings can be saved just if no variable of their document holds a number that is
infinite or undefined: such a number is kept as null, which has no text. What was saved and is
faithful loads as the same settings, in the directory of the file. -/
theorem saved_settings_reload (accepted : parse root text = .ok settings) :
    ∃ entries, Toml.parse? text = some (.table entries) ∧
      ((varsIn entries).toJson.AllNumbers Number.IsFinite →
        ∃ document, settings.toToml? = some document ∧
          ∀ (tree : FileTree) (path : String),
            settings.save tree path = (tree.write path (Toml.print document)).mapError .io ∧
            ∀ saved, Toml.ReadsBack document → settings.save tree path = .ok saved →
              load saved path = .ok { settings with root := (Path.parent? path).getD "" }) ∧
      (¬(varsIn entries).toJson.AllNumbers Number.IsFinite →
        ∀ (tree : FileTree) (path : String), settings.save tree path = .error .inexpressible) := by
  obtain ⟨entries, parsed, read, valid⟩ := exists_table_of_parse accepted
  have toml := Toml.isToml_parse? parsed
  have storable := isStorable_of_ofJson?_table toml read
  obtain ⟨threads, vars, kept⟩ := of_ofJson?_table toml read
  have written : settings.toToml?.isSome = true ↔
      (varsIn entries).toJson.AllNumbers Number.IsFinite := by
    rw [isSome_toToml?_iff threads, kept, Toml.isSome_ofJson?_canonical_iff vars]
  refine ⟨entries, parsed, fun finite => ?_, fun infinite tree path => ?_⟩
  · obtain ⟨document, document_eq⟩ := Option.isSome_iff_exists.mp (written.mpr finite)
    refine ⟨document, document_eq, fun tree path => ?_⟩
    have saving : settings.save tree path =
        (tree.write path (Toml.print document)).mapError .io := by
      rw [save_eq, document_eq]
    refine ⟨saving, fun saved faithful run => ?_⟩
    rw [saving, mapError_eq_ok_iff] at run
    rw [load, FileTree.read_write run]
    exact parse_print storable valid document_eq faithful _
  · have none : settings.toToml? = none := by
      rw [← Option.not_isSome_iff_eq_none, written]
      exact infinite
    rw [save_eq, none]

/-- Variables with a point, a date, and a table in a list. -/
theorem saved_settings_reload_dated :
    let tree := FileTree.withDirectory []
    ∃ settings saved,
      parse "shop" "[vars]\nx = 0.5\nd = 2024-01-01\nt = [\x7bk = [1, '\"']\x7d]\n" = .ok settings ∧
      settings.save tree "saved.toml" = .ok saved ∧
      load saved "saved.toml" = .ok { settings with root := "" } := by
  intro tree
  have run :
      (parse "shop" "[vars]\nx = 0.5\nd = 2024-01-01\nt = [\x7bk = [1, '\"']\x7d]\n").toOption.any
        (fun settings => (settings.save tree "saved.toml").isOk &&
          settings.toToml?.all fun document => Toml.ReadsBack document) = true := by
    decide +kernel
  obtain ⟨settings, accepted, run⟩ := exists_of_any run
  obtain ⟨saves, faithful⟩ := (Bool.and_eq_true _ _).mp run
  obtain ⟨saved, written⟩ := exists_of_isOk saves
  obtain ⟨entries, -, finite, infinite⟩ := saved_settings_reload accepted
  have allFinite : (varsIn entries).toJson.AllNumbers Number.IsFinite := by
    by_contra none
    cases (infinite none tree "saved.toml").symm.trans written
  obtain ⟨document, document_eq, files⟩ := finite allFinite
  rw [document_eq, Option.all_some, decide_eq_true_eq] at faithful
  exact ⟨settings, saved, accepted, written,
    (files tree "saved.toml").2 saved faithful written⟩

/-- A variable that is infinite is kept as null, and the settings cannot be saved. -/
theorem infinite_variable_not_saved : ∃ settings, parse "" "[vars]\nx = inf\n" = .ok settings ∧
    settings.vars = .ofList [("x", .null)] ∧
    ∀ (tree : FileTree) (path : String), settings.save tree path = .error .inexpressible := by
  have run : (parse "" "[vars]\nx = inf\n").toOption.any (fun settings =>
      settings.vars = .ofList [("x", .null)] && settings.toToml?.isNone) = true := by
    decide +kernel
  obtain ⟨settings, accepted, run⟩ := exists_of_any run
  obtain ⟨vars, none⟩ := (Bool.and_eq_true _ _).mp run
  refine ⟨settings, accepted, of_decide_eq_true vars, fun tree path => ?_⟩
  rw [save_eq, Option.isNone_iff_eq_none.mp none]

end SqlPipeline.Settings
