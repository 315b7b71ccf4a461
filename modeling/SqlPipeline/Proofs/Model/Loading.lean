import SqlPipeline.Model.Project
import SqlPipeline.Proofs.Graph.Cycle
import SqlPipeline.Proofs.Model.Building
import SqlPipeline.Proofs.Success

/-!
# What a loaded project holds

Loading succeeds exactly when every file has a name, no two files have the same one, every model
that is read is there, and no model depends on itself.  The project then holds one model for each
file, under an id that tells the models apart, and its graph has an edge for every model that
another one reads.
-/

namespace SqlPipeline

/-- What is related to a list in parts falls into related parts. -/
theorem exists_split_of_forall₂ {α β : Type} {relation : α → β → Prop} {front back : List α}
    {item : α} {others : List β} (related : List.Forall₂ relation (front ++ item :: back) others) :
    ∃ first other last, others = first ++ other :: last ∧ List.Forall₂ relation front first ∧
      relation item other ∧ List.Forall₂ relation back last := by
  induction front generalizing others with
  | nil =>
    obtain ⟨other, last, here, later, rfl⟩ := List.forall₂_cons_left_iff.mp related
    exact ⟨[], other, last, rfl, .nil, here, later⟩
  | cons head front ih =>
    obtain ⟨start, rest, here, later, rfl⟩ := List.forall₂_cons_left_iff.mp related
    obtain ⟨first, other, last, rfl, earlier, middle, later⟩ := ih later
    exact ⟨start :: first, other, last, rfl, .cons here earlier, middle, later⟩

namespace Project

variable {settings : Settings} {files : List (FilePath × String)} {project : Project}
  {sources : List Source} {id parent child : String} {model : Model}

/-! ## The graph -/

/-- Add a model to a graph, after the models that it reads. -/
def addModel (graph : Graph) (model : Model) : Graph :=
  model.dependsOn.foldl (fun graph parent => graph.addEdge parent model.id)
    (graph.addNode model.id)

theorem graph_eq_foldl (project : Project) :
    project.graph = project.models.values.foldl addModel .empty := rfl

/-- Each model is added as a node with edges from the models that it reads. -/
theorem graph_eq_build (project : Project) :
    project.graph = Graph.build (Graph.readings
      (project.models.values.map fun model => (model.id, model.dependsOn))) := by
  simp only [graph_eq_foldl, Graph.build, Graph.readings, List.foldl_flatMap, List.foldl_cons,
    List.foldl_map]
  rfl

theorem mem_nodes_graph {name : String} :
    name ∈ project.graph.nodes ↔
      ∃ model ∈ project.models.values, name = model.id ∨ name ∈ model.dependsOn := by
  rw [graph_eq_build, Graph.mem_nodes_readings]
  simp only [List.mem_map, exists_exists_and_eq_and]

/-- There is an edge for every model that another one reads, and no other. -/
theorem edge_graph_iff :
    project.graph.Edge parent child ↔
      ∃ model ∈ project.models.values, child = model.id ∧ parent ∈ model.dependsOn := by
  rw [graph_eq_build, Graph.edge_readings_iff]
  simp only [List.mem_map, exists_exists_and_eq_and]

/-! ## Models from files -/

/-- The source is the file with the name that its path gives. -/
structure Source.OfFile (file : FilePath × String) (source : Source) : Prop where
  name : file.1.fileStem? = some source.name
  path : source.path = file.1
  sql : source.sql = file.2

theorem nameSources_eq_ok_iff {seen : List (String × FilePath)} :
    nameSources seen files = .ok sources ↔
      List.Forall₂ Source.OfFile files sources ∧ (sources.map (·.name)).Nodup ∧
        ∀ source ∈ sources, seen.lookup source.name = none := by
  induction files generalizing seen sources with
  | nil =>
    rw [nameSources, Except.ok.injEq, List.forall₂_nil_left_iff, eq_comm]
    exact ⟨by rintro rfl; simp, And.left⟩
  | cons file files ih =>
    obtain ⟨path, sql⟩ := file
    rw [nameSources]
    constructor
    · intro run
      split at run
      · cases run
      next name named =>
        split at run
        · cases run
        next fresh =>
          obtain ⟨rest, later, done⟩ := bind_eq_ok_iff.mp run
          obtain rfl := Except.ok.inj done
          obtain ⟨same, distinct, absent⟩ := ih.mp later
          refine ⟨.cons ⟨named, rfl, rfl⟩ same, List.nodup_cons.mpr ⟨?_, distinct⟩, ?_⟩
          · intro member
            obtain ⟨source, listed, named⟩ := List.mem_map.mp member
            have missing := absent source listed
            rw [named, List.lookup_cons, beq_self_eq_true] at missing
            cases missing
          · refine List.forall_mem_cons.mpr ⟨fresh, fun source listed => ?_⟩
            have missing := absent source listed
            rw [List.lookup_cons] at missing
            split at missing
            · cases missing
            · exact missing
    · rintro ⟨same, distinct, absent⟩
      cases same with
      | @cons _ source _ rest first same =>
        obtain ⟨named, rfl, rfl⟩ := first
        obtain ⟨fresh, distinct⟩ := List.nodup_cons.mp distinct
        rw [List.forall_mem_cons] at absent
        rw [named]
        dsimp only
        rw [absent.1]
        refine bind_eq_ok_iff.mpr ⟨rest, ih.mpr ⟨same, distinct, fun other listed => ?_⟩, rfl⟩
        have different : other.name ≠ source.name := fun equal =>
          fresh (List.mem_map.mpr ⟨other, listed, equal⟩)
        rw [List.lookup_cons, beq_eq_false_iff_ne.mpr different]
        exact absent.2 other listed

/-- The model of a source in a project that has every model that it reads. -/
def Source.toModel (settings : Settings) (source : Source) : Model :=
  let calls := ModelCalls.ofText source.sql
  { id := modelId settings source.name
    name := source.name
    package := settings.name
    path := source.path
    rawSql := source.sql
    checksum := Sha256.ofText source.sql
    materialized := (calls.settings.get? "materialized").getD settings.materialized
    relationName := calls.settings.get? "alias"
    schema := calls.settings.get? "schema"
    dependsOn := calls.modelNames.map (modelId settings)
    sources := calls.sourceTables }

theorem referencedId_eq_ok_iff {names : List String} {reader reference : String} :
    referencedId settings names reader reference = .ok id ↔
      reference ∈ names ∧ id = modelId settings reference := by
  rw [referencedId]
  split
  next there => simp [List.contains_iff_mem.mp there, eq_comm]
  next absent => simp [mt List.contains_iff_mem.mpr absent]

theorem modelOf_eq_ok_iff {names : List String} {source : Source} :
    modelOf settings names source = .ok model ↔
      (∀ name ∈ (ModelCalls.ofText source.sql).modelNames, name ∈ names) ∧
        model = source.toModel settings := by
  rw [modelOf, bind_eq_ok_iff]
  simp only [mapM_eq_ok_iff fun name id => referencedId_eq_ok_iff, Except.ok.injEq]
  constructor
  · rintro ⟨_, ⟨read, rfl⟩, rfl⟩
    exact ⟨read, rfl⟩
  · rintro ⟨read, rfl⟩
    exact ⟨_, ⟨read, rfl⟩, rfl⟩

/-! ## Loading -/

/-- The project of a list of sources, if nothing is wrong with it. -/
def ofNamed (settings : Settings) (sources : List Source) : Project :=
  let models := sources.map (Source.toModel settings)
  { settings
    models := .ofList (models.map fun model => (model.id, model))
    ids := .ofList (models.map fun model => (model.name, model.id)) }

/-- What loading checks: names are different, models that are read are there, and none depends on
itself. -/
structure Sources (settings : Settings) (sources : List Source) : Prop where
  distinct : (sources.map (·.name)).Nodup
  read : ∀ source ∈ sources, ∀ name ∈ (ModelCalls.ofText source.sql).modelNames,
    name ∈ sources.map (·.name)
  acyclic : (ofNamed settings sources).graph.Acyclic

theorem ofSources_eq_ok_iff :
    ofSources settings files = .ok project ↔
      ∃ sources, List.Forall₂ Source.OfFile files sources ∧ Sources settings sources ∧
        project = ofNamed settings sources := by
  rw [ofSources, bind_eq_ok_iff]
  simp only [bind_eq_ok_iff, mapM_eq_ok_iff fun source model => modelOf_eq_ok_iff]
  constructor
  · rintro ⟨sources, named, _, ⟨read, rfl⟩, done⟩
    obtain ⟨same, distinct, -⟩ := nameSources_eq_ok_iff.mp named
    split at done
    · cases done
    next none =>
      cases done
      exact ⟨sources, same, ⟨distinct, read, Graph.findCycle?_eq_none_iff.mp none⟩, rfl⟩
  · rintro ⟨sources, same, ⟨distinct, read, acyclic⟩, rfl⟩
    refine ⟨sources, nameSources_eq_ok_iff.mpr ⟨same, distinct, by simp⟩, _, ⟨read, rfl⟩, ?_⟩
    have none := Graph.findCycle?_eq_none_iff.mpr acyclic
    simp only [ofNamed] at none ⊢
    rw [none]

theorem modelId_injective (settings : Settings) : Function.Injective (modelId settings) := by
  intro first second same
  simpa [modelId, String.ext_iff] using same

theorem get?_ofNamed_iff (distinct : (sources.map (·.name)).Nodup) :
    (ofNamed settings sources).get? id = some model ↔
      ∃ source ∈ sources, model = source.toModel settings ∧ id = modelId settings source.name := by
  have ids : ((sources.map fun source =>
      (modelId settings source.name, source.toModel settings)).map (·.1)).Nodup := by
    have ids := distinct.map (modelId_injective settings)
    rw [List.map_map] at ids ⊢
    exact ids
  have entries : (ofNamed settings sources).models = .ofList (sources.map fun source =>
      (modelId settings source.name, source.toModel settings)) := by
    rw [ofNamed, List.map_map]
    rfl
  rw [get?, entries, NameMap.get?_ofList_iff ids]
  simp only [List.mem_map, Prod.mk.injEq]
  constructor
  · rintro ⟨source, listed, rfl, rfl⟩
    exact ⟨source, listed, rfl, rfl⟩
  · rintro ⟨source, listed, rfl, rfl⟩
    exact ⟨source, listed, rfl, rfl⟩

theorem edge_ofNamed_iff (distinct : (sources.map (·.name)).Nodup) :
    (ofNamed settings sources).graph.Edge parent child ↔
      ∃ source ∈ sources, child = modelId settings source.name ∧
        parent ∈ (ModelCalls.ofText source.sql).modelNames.map (modelId settings) := by
  rw [edge_graph_iff]
  constructor
  · rintro ⟨model, member, rfl, reads⟩
    obtain ⟨id, found⟩ := NameMap.mem_values.mp member
    obtain ⟨source, listed, rfl, rfl⟩ := (get?_ofNamed_iff distinct).mp found
    exact ⟨source, listed, rfl, reads⟩
  · rintro ⟨source, listed, rfl, reads⟩
    have found : (ofNamed settings sources).get? (modelId settings source.name) =
        some (source.toModel settings) := (get?_ofNamed_iff distinct).mpr ⟨source, listed, rfl, rfl⟩
    exact ⟨source.toModel settings, NameMap.mem_values.mpr ⟨_, found⟩, rfl, reads⟩

/-- Two files of one name hold the same calls. -/
structure Source.Matches (first second : Source) : Prop where
  name : first.name = second.name
  calls : ModelCalls.ofText first.sql = ModelCalls.ofText second.sql

/-- Loading checks nothing of a file but its name and its calls. -/
theorem Sources.of_matches {others : List Source} (checked : Sources settings sources)
    (same : List.Forall₂ Source.Matches sources others) : Sources settings others := by
  have names : sources.map (·.name) = others.map (·.name) := by
    rw [← List.forall₂_eq_eq_eq, List.forall₂_map_left_iff, List.forall₂_map_right_iff]
    exact same.imp fun _ _ pair => pair.name
  have distinct : (others.map (·.name)).Nodup := names ▸ checked.distinct
  have back : ∀ other ∈ others, ∃ source ∈ sources, source.Matches other := by
    intro other listed
    obtain ⟨index, bound, rfl⟩ := List.getElem_of_mem listed
    have shorter : index < sources.length := same.length_eq ▸ bound
    exact ⟨sources[index], List.getElem_mem shorter, same.get shorter bound⟩
  refine ⟨distinct, fun other listed => ?_, fun name path => ?_⟩
  · obtain ⟨source, there, pair⟩ := back other listed
    rw [← names, ← pair.calls]
    exact checked.read source there
  · refine checked.acyclic name (Relation.TransGen.mono (fun parent child edge => ?_) _ _ path)
    obtain ⟨other, listed, rfl, reads⟩ := (edge_ofNamed_iff distinct).mp edge
    obtain ⟨source, there, pair⟩ := back other listed
    rw [← pair.name]
    rw [← pair.calls] at reads
    exact (edge_ofNamed_iff checked.distinct).mpr ⟨source, there, rfl, reads⟩

/-- How a project changes when a model gets another text with the same calls: its text and digest
change, and nothing else does. -/
structure Rewritten (id text : String) (before after : Project) : Prop where
  settings : after.settings = before.settings
  others : ∀ other, other ≠ id → after.get? other = before.get? other
  changed : ∃ model, before.get? id = some model ∧
    after.get? id = some { model with rawSql := text, checksum := Sha256.ofText text }

theorem Rewritten.exists_get? {before after : Project} {text other : String}
    (rewritten : Rewritten id text before after) (found : before.get? other = some model) :
    ∃ sql digest, after.get? other = some { model with rawSql := sql, checksum := digest } := by
  by_cases same : other = id
  · obtain ⟨old, held, new⟩ := rewritten.changed
    rw [← same, found] at held
    cases held
    exact ⟨_, _, same ▸ new⟩
  · exact ⟨model.rawSql, model.checksum, (rewritten.others other same).trans found⟩

/-- A project loads just as well when a model gets another text with the same calls. -/
theorem exists_rewritten {before after : List (FilePath × String)} {path : FilePath}
    {name sql text : String} (named : path.fileStem? = some name)
    (same : ModelCalls.ofText sql = ModelCalls.ofText text)
    (loaded : ofSources settings (before ++ (path, sql) :: after) = .ok project) :
    ∃ changed, ofSources settings (before ++ (path, text) :: after) = .ok changed ∧
      Rewritten (modelId settings name) text project changed := by
  obtain ⟨sources, files, checked, rfl⟩ := ofSources_eq_ok_iff.mp loaded
  obtain ⟨front, source, back, rfl, earlier, here, later⟩ := exists_split_of_forall₂ files
  obtain rfl : name = source.name := by
    rw [here.name, Option.some.injEq] at named
    exact named.symm
  have matched : ∀ sources : List Source, List.Forall₂ Source.Matches sources sources :=
    fun sources => List.forall₂_same.mpr fun _ _ => ⟨rfl, rfl⟩
  have pair : source.Matches { source with sql := text } := ⟨rfl, by rw [here.sql]; exact same⟩
  have rechecked : Sources settings (front ++ { source with sql := text } :: back) :=
    checked.of_matches (List.rel_append (matched front) (.cons pair (matched back)))
  refine ⟨_, ofSources_eq_ok_iff.mpr ⟨_, ?_, rechecked, rfl⟩, rfl, fun other different => ?_, ?_⟩
  · exact List.rel_append earlier (.cons ⟨here.name, here.path, rfl⟩ later)
  · refine Option.ext fun model => ?_
    simp only [get?_ofNamed_iff checked.distinct, get?_ofNamed_iff rechecked.distinct,
      List.mem_append, List.mem_cons]
    constructor
    · rintro ⟨found, front | rfl | back, rfl, rfl⟩
      · exact ⟨found, .inl front, rfl, rfl⟩
      · exact absurd rfl different
      · exact ⟨found, .inr (.inr back), rfl, rfl⟩
    · rintro ⟨found, front | rfl | back, rfl, rfl⟩
      · exact ⟨found, .inl front, rfl, rfl⟩
      · exact absurd rfl different
      · exact ⟨found, .inr (.inr back), rfl, rfl⟩
  · refine ⟨source.toModel settings, (get?_ofNamed_iff checked.distinct).mpr
      ⟨source, by simp, rfl, rfl⟩, (get?_ofNamed_iff rechecked.distinct).mpr
      ⟨{ source with sql := text }, by simp, ?_, rfl⟩⟩
    simp only [Source.toModel, pair.calls]

/-- A project that loads and passes a check, found by evaluation. -/
theorem exists_loaded (settings : Settings) (files : List (FilePath × String))
    (check : Project → Bool) (passes : (ofSources settings files).toOption.any check = true) :
    ∃ project, ofSources settings files = .ok project ∧ check project = true := by
  cases loaded : ofSources settings files with
  | error error =>
    rw [loaded] at passes
    cases passes
  | ok project =>
    rw [loaded] at passes
    exact ⟨project, rfl, passes⟩

/-- A project that does not load, found by evaluation. -/
theorem ofSources_eq_error {error : ProjectError}
    (fails : (match ofSources settings files with
      | .ok _ => false
      | .error other => decide (other = error)) = true) :
    ofSources settings files = .error error := by
  cases loading : ofSources settings files with
  | ok project =>
    rw [loading] at fails
    cases fails
  | error other =>
    rw [loading] at fails
    rw [of_decide_eq_true fails]

theorem settings_ofSources (loaded : ofSources settings files = .ok project) :
    project.settings = settings := by
  obtain ⟨sources, -, -, rfl⟩ := ofSources_eq_ok_iff.mp loaded
  rfl

/-- A model of a project is made from its text. -/
theorem exists_toModel (loaded : ofSources settings files = .ok project)
    (found : project.get? id = some model) :
    ∃ source : Source, model = source.toModel settings := by
  obtain ⟨sources, -, checked, rfl⟩ := ofSources_eq_ok_iff.mp loaded
  obtain ⟨source, -, same, -⟩ := (get?_ofNamed_iff checked.distinct).mp found
  exact ⟨source, same⟩

/-- The id of a model is made from its name, and it is found under that id. -/
theorem id_of_get? (loaded : ofSources settings files = .ok project)
    (found : project.get? id = some model) : id = model.id ∧ id = modelId settings model.name := by
  obtain ⟨sources, -, checked, rfl⟩ := ofSources_eq_ok_iff.mp loaded
  obtain ⟨source, -, rfl, rfl⟩ := (get?_ofNamed_iff checked.distinct).mp found
  exact ⟨rfl, rfl⟩

/-- The models of a project are found under their own ids. -/
theorem get?_ofSources (loaded : ofSources settings files = .ok project)
    (found : project.get? id = some model) : model.id = id :=
  (id_of_get? loaded found).1.symm

/-- No model of a project depends on itself, directly or through others. -/
theorem acyclic_ofSources (loaded : ofSources settings files = .ok project) :
    project.graph.Acyclic := by
  obtain ⟨sources, -, checked, rfl⟩ := ofSources_eq_ok_iff.mp loaded
  exact checked.acyclic

/-- Every model that is read is there. -/
theorem exists_read (loaded : ofSources settings files = .ok project)
    (found : project.get? child = some model) (reads : parent ∈ model.dependsOn) :
    ∃ read, project.get? parent = some read := by
  obtain ⟨sources, -, checked, rfl⟩ := ofSources_eq_ok_iff.mp loaded
  obtain ⟨source, listed, rfl, rfl⟩ := (get?_ofNamed_iff checked.distinct).mp found
  obtain ⟨name, read, rfl⟩ := List.mem_map.mp reads
  obtain ⟨other, listed, rfl⟩ := List.mem_map.mp (checked.read source listed name read)
  exact ⟨_, (get?_ofNamed_iff checked.distinct).mpr ⟨other, listed, rfl, rfl⟩⟩

/-- The edges of a loaded project are the pairs of a model that is read and one that reads it. -/
theorem edge_iff (loaded : ofSources settings files = .ok project) :
    project.graph.Edge parent child ↔
      ∃ model, project.get? child = some model ∧ parent ∈ model.dependsOn := by
  rw [edge_graph_iff]
  constructor
  · rintro ⟨model, member, rfl, reads⟩
    obtain ⟨id, found⟩ := NameMap.mem_values.mp member
    exact ⟨model, (get?_ofSources loaded found).symm ▸ found, reads⟩
  · rintro ⟨model, found, reads⟩
    exact ⟨model, NameMap.mem_values.mpr ⟨child, found⟩, (get?_ofSources loaded found).symm, reads⟩

/-- The nodes of the graph of a loaded project are the ids of its models. -/
theorem mem_nodes_iff (loaded : ofSources settings files = .ok project) :
    id ∈ project.graph.nodes ↔ ∃ model, project.get? id = some model := by
  rw [mem_nodes_graph]
  constructor
  · rintro ⟨model, member, node⟩
    obtain ⟨key, found⟩ := NameMap.mem_values.mp member
    rcases node with rfl | reads
    · exact ⟨model, (get?_ofSources loaded found).symm ▸ found⟩
    · exact exists_read loaded found reads
  · rintro ⟨model, found⟩
    exact ⟨model, NameMap.mem_values.mpr ⟨id, found⟩, .inl (get?_ofSources loaded found).symm⟩

end Project
end SqlPipeline
