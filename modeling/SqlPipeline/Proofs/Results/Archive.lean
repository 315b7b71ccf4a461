import SqlPipeline.Proofs.Model.Archive
import SqlPipeline.Proofs.Time.Instant
import SqlPipeline.Results.Artifact

/-!
# Archives

The artifact of a run is read back from the JSON that is written for it, and so an archive of
manifests and artifacts loses nothing: what is read from a text is what was written, and writing it
again gives the same text.
-/

namespace SqlPipeline

open Json

/-! ## The records of an artifact -/

theorem RunArgs.ofJson?_object {args : RunArgs} {threads : Json}
    (count : nat? threads = some args.threads) :
    RunArgs.ofJson? (.object [
      ("command", .string args.command),
      ("select", .strings args.select),
      ("exclude", .strings args.exclude),
      ("threads", threads),
      ("fail_fast", .bool args.failFast),
      ("target", .string args.target),
      ("notify", .strings args.notify)]) = some args := by
  rw [RunArgs.ofJson?, Record.read?_object]
  · simp [Record.required?, Record.withDefault?, List.lookup_cons, count]
  · exact List.Sublist.refl _
  · decide

theorem RunArgs.ofJson?_toJson {args : RunArgs} (threads : args.threads < Nat.pow 2 64) :
    RunArgs.ofJson? args.toJson = some args :=
  RunArgs.ofJson?_object (nat?_nat threads)

theorem Instant.ofJson?_toJson {instant : Instant} (valid : instant.IsValid) :
    Instant.ofJson? instant.toJson = some instant := by
  rw [Instant.ofJson?, Instant.toJson, text?_string, Option.bind_some, Instant.parse?_text valid]

theorem named?_text (status : NodeStatus) :
    named? NodeStatus.names (.string status.text) = some status := by
  cases status <;> rfl

namespace NodeResult

variable {result : NodeResult} {key : String}

/-- The members of the result of a node, without what is missing. -/
def members (result : NodeResult) : List (String × Json) :=
  [("unique_id", .string result.id), ("status", .string result.status.text)]
    ++ optionalMember "message" .string result.message
    ++ [("execution_time", result.executionTime.toJson)]
    ++ optionalMember "thread_id" .string result.thread
    ++ optionalMember "started_at" Instant.toJson result.startedAt
    ++ optionalMember "completed_at" Instant.toJson result.completedAt
    ++ optionalMember "relation" .string result.relation
    ++ optionalMember "materialization" .string result.materialization

theorem toJson_eq (result : NodeResult) : result.toJson = .object result.members := rfl

/-- Members are written in order of declaration. -/
theorem keys_members (result : NodeResult) : (result.members.map (·.1)).Sublist
    ["unique_id", "status", "message", "execution_time", "thread_id", "started_at",
      "completed_at", "relation", "materialization"] := by
  simp only [members, List.map_append]
  have front := (List.Sublist.refl ["unique_id", "status"]).append
    (sublist_optionalMember "message" Json.string result.message)
  have times := ((front.append (List.Sublist.refl ["execution_time"])).append
    (sublist_optionalMember "thread_id" Json.string result.thread)).append
    (sublist_optionalMember "started_at" Instant.toJson result.startedAt)
  exact ((times.append (sublist_optionalMember "completed_at" _ result.completedAt)).append
    (sublist_optionalMember "relation" _ result.relation)).append
    (sublist_optionalMember "materialization" _ result.materialization)

/-- The members that are always there. -/
theorem lookup_required (result : NodeResult) :
    result.members.lookup "unique_id" = some (.string result.id) ∧
      result.members.lookup "status" = some (.string result.status.text) ∧
      result.members.lookup "execution_time" = some result.executionTime.toJson := by
  simp [members, List.lookup_append, List.lookup_cons]

theorem lookup_texts (result : NodeResult) :
    result.members.lookup "message" = result.message.map .string ∧
      result.members.lookup "thread_id" = result.thread.map .string ∧
      result.members.lookup "relation" = result.relation.map .string ∧
      result.members.lookup "materialization" = result.materialization.map .string := by
  simp [members, List.lookup_append, List.lookup_cons]

theorem lookup_instants (result : NodeResult) :
    result.members.lookup "started_at" = result.startedAt.map Instant.toJson ∧
      result.members.lookup "completed_at" = result.completedAt.map Instant.toJson := by
  simp [members, List.lookup_append, List.lookup_cons]

theorem withDefault?_text {text : Option String}
    (field : result.members.lookup key = text.map .string) :
    Record.withDefault? ⟨result.members, false⟩ key none (Json.nullable? text?) = some text :=
  Record.withDefault?_optional field (fun v _ => text?_string v) fun _ => Json.noConfusion

theorem withDefault?_instant {instant : Option Instant}
    (field : result.members.lookup key = instant.map Instant.toJson)
    (valid : ∀ time ∈ instant, time.IsValid) :
    Record.withDefault? ⟨result.members, false⟩ key none (Json.nullable? Instant.ofJson?) =
      some instant :=
  Record.withDefault?_optional field
    (fun time present => Instant.ofJson?_toJson (valid time present)) fun _ => Json.noConfusion

/-- The result of a node whose time is finite and whose instants are valid is read back. -/
theorem ofJson?_toJson (finite : result.executionTime.isFinite = true)
    (started : ∀ time ∈ result.startedAt, time.IsValid)
    (completed : ∀ time ∈ result.completedAt, time.IsValid) :
    NodeResult.ofJson? result.toJson = some result := by
  obtain ⟨id, status, time⟩ := result.lookup_required
  obtain ⟨message, thread, relation, materialization⟩ := result.lookup_texts
  obtain ⟨start, completion⟩ := result.lookup_instants
  rw [NodeResult.ofJson?, toJson_eq, Record.read?_object result.keys_members (by decide)]
  simp [Record.required?, id, status, time, named?_text, Binary64.toJson, real?_toJson finite,
    withDefault?_text message, withDefault?_text thread, withDefault?_text relation,
    withDefault?_text materialization, withDefault?_instant start started,
    withDefault?_instant completion completed]

/-- The numbers of a result are read back when its time is. -/
theorem allNumbers_toJson (time : (Number.real result.executionTime).ReadsBack) :
    AllNumbers Number.ReadsBack result.toJson := by
  have texts : ∀ (key : String) (text : Option String),
      ∀ member ∈ optionalMember key Json.string text, AllNumbers Number.ReadsBack member.2 :=
    fun key text => allNumbers_optionalMember fun v _ => .string v
  have instants : ∀ (key : String) (time : Option Instant),
      ∀ member ∈ optionalMember key Instant.toJson time, AllNumbers Number.ReadsBack member.2 :=
    fun key time => allNumbers_optionalMember fun v _ => .string v.text
  have words : ∀ member ∈ [("unique_id", Json.string result.id),
      ("status", .string result.status.text)], AllNumbers Number.ReadsBack member.2 := by
    simp
  have execution : ∀ member ∈ [("execution_time", result.executionTime.toJson)],
      AllNumbers Number.ReadsBack member.2 := by
    simpa [Binary64.toJson] using time
  simp only [toJson_eq, members, allNumbers_object_iff, List.forall_mem_append]
  exact ⟨⟨⟨⟨⟨⟨⟨words, texts _ _⟩, execution⟩, texts _ _⟩, instants _ _⟩, instants _ _⟩,
    texts _ _⟩, texts _ _⟩

end NodeResult

namespace RunArtifact

/-- The floating-point numbers of an artifact. -/
def reals (artifact : RunArtifact) : List Binary64 :=
  artifact.elapsedTime :: artifact.results.map (·.executionTime)

/-- An artifact whose version and arguments have the width of their fields and whose times the
calendar knows. -/
structure IsValid (artifact : RunArtifact) : Prop where
  major : artifact.version.major < Nat.pow 2 32
  minor : artifact.version.minor < Nat.pow 2 32
  threads : artifact.args.threads < Nat.pow 2 64
  generatedAt : artifact.generatedAt.IsValid
  started : ∀ result ∈ artifact.results, ∀ time ∈ result.startedAt, time.IsValid
  completed : ∀ result ∈ artifact.results, ∀ time ∈ result.completedAt, time.IsValid

theorem versionOfJson?_object {version : ArtifactVersion} {major minor : Json}
    (first : natBelow? (Nat.pow 2 32) major = some version.major)
    (second : natBelow? (Nat.pow 2 32) minor = some version.minor) :
    versionOfJson? (.object [("major", major), ("minor", minor)]) = some version := by
  rw [versionOfJson?, Record.read?_object]
  · simp [Record.required?, List.lookup_cons, first, second]
  · exact List.Sublist.refl _
  · decide

theorem ofJson?_object {artifact : RunArtifact} {version generatedAt results elapsed args : Json}
    (versions : versionOfJson? version = some artifact.version)
    (instant : Instant.ofJson? generatedAt = some artifact.generatedAt)
    (nodes : list? NodeResult.ofJson? results = some artifact.results)
    (time : real? elapsed = some artifact.elapsedTime)
    (arguments : RunArgs.ofJson? args = some artifact.args) :
    ofJson? (.object [
      ("metadata", .object [
        ("schema_version", version),
        ("generated_at", generatedAt),
        ("invocation_id", .string artifact.invocation)]),
      ("results", results),
      ("elapsed_time", elapsed),
      ("args", args)]) = some artifact := by
  have metadata : Record.read? false ["schema_version", "generated_at", "invocation_id"]
      (.object [
        ("schema_version", version),
        ("generated_at", generatedAt),
        ("invocation_id", .string artifact.invocation)]) = some ⟨_, false⟩ :=
    Record.read?_object (List.Sublist.refl _) (by decide)
  rw [ofJson?, Record.read?_object]
  · simp [Record.required?, List.lookup_cons, metadata, versions, instant, nodes, time, arguments]
  · exact List.Sublist.refl _
  · decide

/-- A valid artifact with finite numbers is read back. -/
theorem ofJson?_toJson {artifact : RunArtifact} (valid : artifact.IsValid)
    (finite : ∀ x ∈ artifact.reals, x.isFinite = true) :
    ofJson? artifact.toJson = some artifact := by
  obtain ⟨elapsed, times⟩ := List.forall_mem_cons.mp finite
  have results : list? NodeResult.ofJson? (.array (artifact.results.map NodeResult.toJson)) =
      some artifact.results :=
    list?_map fun result present => NodeResult.ofJson?_toJson
      (times _ (List.mem_map_of_mem present)) (valid.started result present)
      (valid.completed result present)
  have version := versionOfJson?_object (natBelow?_nat valid.major) (natBelow?_nat valid.minor)
  exact ofJson?_object version (Instant.ofJson?_toJson valid.generatedAt) results
    (real?_toJson elapsed) (RunArgs.ofJson?_toJson valid.threads)

/-- The numbers of a valid artifact are read back when its floating-point numbers are. -/
theorem allNumbers_toJson {artifact : RunArtifact} (valid : artifact.IsValid)
    (faithful : ∀ x ∈ artifact.reals, (Number.real x).ReadsBack) :
    AllNumbers Number.ReadsBack artifact.toJson := by
  obtain ⟨elapsed, times⟩ := List.forall_mem_cons.mp faithful
  have natural : ∀ n : Nat, n < Nat.pow 2 64 → (Number.integer n).ReadsBack := fun n small => by
    rw [Nat.pow_eq] at small
    exact readsBack_integer (by omega) (by omega)
  have small : ∀ n : Nat, n < Nat.pow 2 32 → (Number.integer n).ReadsBack := fun n bound =>
    natural n (by rw [Nat.pow_eq] at *; omega)
  have results : AllNumbers Number.ReadsBack (.array (artifact.results.map NodeResult.toJson)) :=
    allNumbers_map fun result present =>
      NodeResult.allNumbers_toJson (times _ (List.mem_map_of_mem present))
  simp [toJson, RunArgs.toJson, Binary64.toJson, Instant.toJson, Json.nat, Json.int, results,
    elapsed, small _ valid.major, small _ valid.minor, natural _ valid.threads]

/-- A valid artifact is read back from its text when its floating-point numbers are. -/
theorem parse?_print {artifact : RunArtifact} (valid : artifact.IsValid)
    (faithful : ∀ x ∈ artifact.reals, (Number.real x).ReadsBack) :
    parse? artifact.print = some artifact := by
  rw [parse?, print, read?_pretty (allNumbers_toJson valid faithful), Option.bind_some,
    ofJson?_toJson valid fun x present => isFinite_of_readsBack (faithful x present)]

end RunArtifact

/-- Archives lose nothing.  Every manifest is read back from its text and from any file that it is
saved to, and every valid artifact is read back from its text, provided that its numbers are finite
and that the format is faithful to those; what was read is written in the same way again.  The
format is not faithful to every finite number: `ReadsBack` is a condition on each number of the
artifact, which the duration of a run can fail. -/
theorem archives_read_back :
    (∀ manifest : Manifest,
      Manifest.parse manifest.print = .ok manifest ∧
      (Manifest.parse manifest.print).map Manifest.print = .ok manifest.print ∧
      ∀ (tree saved : FileTree) (path : String), manifest.save tree path = .ok saved →
        saved.read path = .ok manifest.print ∧ Manifest.load saved path = .ok manifest) ∧
    (∀ artifact : RunArtifact, artifact.IsValid →
      (∀ x ∈ artifact.reals, x.isFinite = true) →
      (∀ x ∈ artifact.reals, x.isFinite = true → (Json.Number.real x).ReadsBack) →
      RunArtifact.parse? artifact.print = some artifact ∧
      (RunArtifact.parse? artifact.print).map RunArtifact.print = some artifact.print) := by
  constructor
  · intro manifest
    have back := Manifest.parse_print manifest
    refine ⟨back, by rw [back]; rfl, fun tree saved path run => ?_⟩
    have text := Manifest.read_of_save run
    exact ⟨text, by rw [Manifest.load, text]; exact back⟩
  · intro artifact valid finite faithful
    have back := RunArtifact.parse?_print valid fun x present =>
      faithful x present (finite x present)
    exact ⟨back, by rw [back]; rfl⟩

/-- A manifest whose only node has no place in a database and a name beyond ASCII, and an artifact
of two nodes, one of which started in a leap second. -/
theorem archives_read_back_leap_second :
    let node : ManifestNode :=
      { id := "model.shop.кäse", name := "кäse\n\"", resourceType := "model", package := "shop",
        path := "models/a.sql", checksum := "", database := none, schema := some "",
        relationName := none, enabled := false, materialized := none, dependsOn := ["a", "b"],
        sources := [("raw", "\u0001")] }
    let manifest : Manifest :=
      { metadata := ⟨"v1", "", "shop", "dev"⟩, nodes := .ofList [("x", node)],
        parents := .ofList [("x", ["a"])], children := .empty }
    let tenth := Binary64.ofRatio false 1 10
    let result : NodeResult :=
      { id := "model.shop.a", status := .error, message := some "\t", executionTime := tenth,
        thread := none, startedAt := some ⟨1483228799, 1500000000⟩, completedAt := none,
        relation := none, materialization := some "view" }
    let artifact : RunArtifact :=
      { version := ⟨1, 0⟩, generatedAt := ⟨-1, 1⟩, invocation := "",
        results := [result, .skipped "model.shop.b" "skipped"], elapsedTime := tenth.neg,
        args := { RunArgs.default with threads := 4 } }
    Manifest.parse manifest.print = .ok manifest ∧
      RunArtifact.parse? artifact.print = some artifact := by
  intro node manifest tenth result artifact
  refine ⟨(archives_read_back.1 manifest).1, (archives_read_back.2 artifact ?_ ?_ ?_).1⟩
  · exact ⟨by decide, by decide, by decide, by decide, by decide, by decide⟩
  · decide +kernel
  · decide +kernel

end SqlPipeline
