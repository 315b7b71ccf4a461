import SqlPipeline.Proofs.Files.FilePath
import SqlPipeline.Proofs.Model.Loading

/-!
# What makes a list of files a project

Whether files can be loaded is said in terms of the files alone: each has a name, which is a text,
names are different, every model that is read is there, and no model reads itself through others.
The order of the files has no part in this, nor in the project that they make.
-/

namespace SqlPipeline
namespace Project

variable {settings : Settings} {files others : List (FilePath × String)} {project : Project}
  {sources listed : List Source} {parent child : String}

/-! ## Files and what they read -/

/-- A file reads the model of another one: a call in its text names that model. -/
def Reads (files : List (FilePath × String)) (parent child : String) : Prop :=
  ∃ file ∈ files, file.1.fileStem? = some child ∧
    ∃ package, .model package parent ∈ (ModelCalls.ofText file.2).references

/-- Nothing is wrong with a list of files. -/
structure Consistent (files : List (FilePath × String)) : Prop where
  /-- Every path has a stem, and that is a text in UTF-8. -/
  stems : ∀ file ∈ files, ∃ stem name,
    file.1.stemBytes? = some stem ∧ Encoding.utf8.encode name = .ok stem
  distinct : (files.map fun file => file.1.fileStem?).Nodup
  read : ∀ file ∈ files, ∀ package name,
    .model package name ∈ (ModelCalls.ofText file.2).references →
      ∃ other ∈ files, other.1.fileStem? = some name
  acyclic : ∀ name, ¬ Relation.TransGen (Reads files) name name

theorem Consistent.named (consistent : Consistent files) :
    ∀ file ∈ files, ∃ name, file.1.fileStem? = some name := by
  intro file listed
  obtain ⟨stem, name, held, written⟩ := consistent.stems file listed
  exact ⟨name, FilePath.fileStem?_eq_some_iff.mpr ⟨stem, held, written⟩⟩

/-- The file of a source. -/
def Source.file (source : Source) : FilePath × String := (source.path, source.sql)

theorem forall₂_ofFile_iff :
    List.Forall₂ Source.OfFile files sources ↔ files = sources.map Source.file ∧
      ∀ source ∈ sources, source.path.fileStem? = some source.name := by
  induction files generalizing sources with
  | nil =>
    rw [List.forall₂_nil_left_iff, @eq_comm _ [], List.map_eq_nil_iff]
    exact ⟨by rintro rfl; simp, And.left⟩
  | cons file files ih =>
    constructor
    · rintro (_ | ⟨⟨named, path, sql⟩, later⟩)
      obtain ⟨rfl, rest⟩ := ih.mp later
      rw [← path] at named
      refine ⟨?_, List.forall_mem_cons.mpr ⟨named, rest⟩⟩
      rw [List.map_cons, Source.file, path, sql]
    · rintro ⟨same, named⟩
      obtain ⟨source, rest, rfl, rfl, rfl⟩ := List.map_eq_cons_iff.mp same.symm
      obtain ⟨first, later⟩ := List.forall_mem_cons.mp named
      exact .cons ⟨first, rfl, rfl⟩ (ih.mpr ⟨rfl, later⟩)

theorem exists_sources (named : ∀ file ∈ files, ∃ name, file.1.fileStem? = some name) :
    ∃ sources, List.Forall₂ Source.OfFile files sources := by
  induction files with
  | nil => exact ⟨[], .nil⟩
  | cons file files ih =>
    obtain ⟨⟨name, first⟩, later⟩ := List.forall_mem_cons.mp named
    obtain ⟨sources, rest⟩ := ih later
    exact ⟨⟨name, file.1, file.2⟩ :: sources, .cons ⟨first, rfl, rfl⟩ rest⟩

section

variable (named : ∀ source ∈ sources, source.path.fileStem? = some source.name)

include named

theorem map_fileStem? :
    (sources.map Source.file).map (fun file => file.1.fileStem?) =
      (sources.map (·.name)).map some := by
  rw [List.map_map, List.map_map]
  exact List.map_congr_left named

theorem exists_file_iff (name : String) :
    (∃ other ∈ sources.map Source.file, other.1.fileStem? = some name) ↔
      name ∈ sources.map (·.name) := by
  simp only [List.mem_map, exists_exists_and_eq_and]
  refine exists_congr fun source => and_congr_right fun listed => ?_
  rw [Source.file, named source listed, Option.some.injEq]

theorem reads_iff :
    Reads (sources.map Source.file) parent child ↔
      ∃ source ∈ sources, source.name = child ∧
        parent ∈ (ModelCalls.ofText source.sql).modelNames := by
  simp only [Reads, List.mem_map, exists_exists_and_eq_and]
  refine exists_congr fun source => and_congr_right fun listed => ?_
  rw [Source.file, named source listed, Option.some.injEq, ModelCalls.mem_modelNames]

/-- The edges of the graph are what the files read, by the ids of the models. -/
theorem edge_iff_reads (distinct : (sources.map (·.name)).Nodup) {first second : String} :
    (ofNamed settings sources).graph.Edge first second ↔ ∃ parent child,
      first = modelId settings parent ∧ second = modelId settings child ∧
        Reads (sources.map Source.file) parent child := by
  rw [edge_ofNamed_iff distinct]
  constructor
  · rintro ⟨source, listed, rfl, member⟩
    obtain ⟨parent, read, rfl⟩ := List.mem_map.mp member
    exact ⟨parent, source.name, rfl, rfl, (reads_iff named).mpr ⟨source, listed, rfl, read⟩⟩
  · rintro ⟨parent, child, rfl, rfl, reads⟩
    obtain ⟨source, listed, rfl, read⟩ := (reads_iff named).mp reads
    exact ⟨source, listed, rfl, List.mem_map_of_mem read⟩

theorem acyclic_ofNamed_iff (distinct : (sources.map (·.name)).Nodup) :
    (ofNamed settings sources).graph.Acyclic ↔
      ∀ name, ¬ Relation.TransGen (Reads (sources.map Source.file)) name name := by
  constructor
  · intro acyclic name around
    refine acyclic (modelId settings name) (Relation.TransGen.lift (modelId settings) ?_ _ _ around)
    intro parent child reads
    exact (edge_iff_reads named distinct).mpr ⟨parent, child, rfl, rfl, reads⟩
  · intro acyclic id around
    -- Every path between ids comes from one between names, because ids determine names.
    have back : ∀ {first second}, (ofNamed settings sources).graph.Precedes first second →
        ∃ parent child, first = modelId settings parent ∧ second = modelId settings child ∧
          Relation.TransGen (Reads (sources.map Source.file)) parent child := by
      intro first second path
      induction path with
      | single edge =>
        obtain ⟨parent, child, rfl, rfl, reads⟩ := (edge_iff_reads named distinct).mp edge
        exact ⟨parent, child, rfl, rfl, .single reads⟩
      | tail _ edge ih =>
        obtain ⟨parent, middle, rfl, same, path⟩ := ih
        obtain ⟨last, child, again, rfl, reads⟩ := (edge_iff_reads named distinct).mp edge
        obtain rfl := modelId_injective settings (same.symm.trans again)
        exact ⟨parent, child, rfl, rfl, path.tail reads⟩
    obtain ⟨parent, child, rfl, same, path⟩ := back around
    obtain rfl := modelId_injective settings same
    exact acyclic parent path

/-- What loading checks of named files is that nothing is wrong with them. -/
theorem sources_iff : Sources settings sources ↔ Consistent (sources.map Source.file) := by
  have names : (sources.map (·.name)).Nodup ↔
      ((sources.map Source.file).map fun file => file.1.fileStem?).Nodup := by
    rw [map_fileStem? named, List.nodup_map_iff (Option.some_injective _)]
  constructor
  · intro checked
    refine ⟨?_, names.mp checked.distinct, ?_, (acyclic_ofNamed_iff named checked.distinct).mp
      checked.acyclic⟩
    · intro file listed
      obtain ⟨source, member, rfl⟩ := List.mem_map.mp listed
      obtain ⟨stem, held, written⟩ := FilePath.fileStem?_eq_some_iff.mp (named source member)
      exact ⟨stem, source.name, held, written⟩
    · intro file listed package name read
      obtain ⟨source, member, rfl⟩ := List.mem_map.mp listed
      exact (exists_file_iff named name).mpr
        (checked.read source member name (ModelCalls.mem_modelNames.mpr ⟨package, read⟩))
  · intro consistent
    have distinct := names.mpr consistent.distinct
    refine ⟨distinct, ?_, (acyclic_ofNamed_iff named distinct).mpr consistent.acyclic⟩
    intro source member name read
    obtain ⟨package, call⟩ := ModelCalls.mem_modelNames.mp read
    exact (exists_file_iff named name).mp
      (consistent.read source.file (List.mem_map_of_mem member) package name call)

end

/-- Files can be loaded exactly if nothing is wrong with them. -/
theorem exists_ofSources_iff :
    (∃ project, ofSources settings files = .ok project) ↔ Consistent files := by
  simp only [ofSources_eq_ok_iff]
  constructor
  · rintro ⟨project, sources, same, checked, rfl⟩
    obtain ⟨rfl, named⟩ := forall₂_ofFile_iff.mp same
    exact (sources_iff named).mp checked
  · intro consistent
    obtain ⟨sources, same⟩ := exists_sources consistent.named
    obtain ⟨rfl, named⟩ := forall₂_ofFile_iff.mp same
    exact ⟨_, sources, same, (sources_iff named).mpr consistent, rfl⟩

/-! ## The order of the files -/

theorem ofNamed_perm (same : sources.Perm listed) (distinct : (sources.map (·.name)).Nodup) :
    ofNamed settings sources = ofNamed settings listed := by
  have models := same.map (Source.toModel settings)
  have ids : (((sources.map (Source.toModel settings)).map fun model => (model.id, model)).map
      (·.1)).Nodup := by
    have ids := distinct.map (modelId_injective settings)
    simp only [List.map_map] at ids ⊢
    exact ids
  have names : (((sources.map (Source.toModel settings)).map fun model =>
      (model.name, model.id)).map (·.1)).Nodup := by
    simp only [List.map_map]
    exact distinct
  simp only [ofNamed]
  rw [NameMap.ofList_perm (models.map _) ids, NameMap.ofList_perm (models.map _) names]

theorem ofSources_of_perm (same : files.Perm others)
    (loaded : ofSources settings files = .ok project) :
    ofSources settings others = .ok project := by
  obtain ⟨sources, related, checked, rfl⟩ := ofSources_eq_ok_iff.mp loaded
  obtain ⟨listed, here, perm⟩ := List.perm_comp_forall₂ same.symm related
  obtain ⟨rfl, named⟩ := forall₂_ofFile_iff.mp related
  obtain ⟨rfl, named'⟩ := forall₂_ofFile_iff.mp here
  have reloaded : Sources settings listed := by
    have names := perm.map (·.name)
    have distinct := names.nodup_iff.mpr checked.distinct
    refine ⟨distinct, fun source member name read => ?_, ?_⟩
    · rw [names.mem_iff]
      exact checked.read source (perm.mem_iff.mp member) name read
    · rw [ofNamed_perm perm distinct]
      exact checked.acyclic
  refine ofSources_eq_ok_iff.mpr ⟨listed, here, reloaded, ?_⟩
  exact (ofNamed_perm perm reloaded.distinct).symm

/-! ## What a project holds -/

/-- A project holds one model for each of its files, and its graph is made of what they read. -/
structure Holds (settings : Settings) (files : List (FilePath × String)) (project : Project) :
    Prop where
  size : project.models.size = files.length
  /-- Every file has a model, which is found under its own id. -/
  model : ∀ file ∈ files, ∃ model, project.get? model.id = some model ∧ model.path = file.1 ∧
    model.rawSql = file.2 ∧ file.1.fileStem? = some model.name
  /-- Every model is found under its own id and comes from a file. -/
  file : ∀ id model, project.get? id = some model → model.id = id ∧
    id = modelId settings model.name ∧ (model.path, model.rawSql) ∈ files
  nodup : ∀ id model, project.get? id = some model → model.dependsOn.Nodup
  /-- The models that a model depends on are those that its text reads, and they are there. -/
  reads : ∀ id model, project.get? id = some model → ∀ parent,
    (parent ∈ model.dependsOn ↔ ∃ package name,
      .model package name ∈ (ModelCalls.ofText model.rawSql).references ∧
        parent = modelId settings name) ∧
    (parent ∈ model.dependsOn → ∃ read, project.get? parent = some read)
  nodes : ∀ id, id ∈ project.graph.nodes ↔ ∃ model, project.get? id = some model
  edges : ∀ parent child, project.graph.Edge parent child ↔
    ∃ model, project.get? child = some model ∧ parent ∈ model.dependsOn

theorem holds_ofSources (loaded : ofSources settings files = .ok project) :
    Holds settings files project := by
  obtain ⟨sources, related, checked, same⟩ := ofSources_eq_ok_iff.mp loaded
  obtain ⟨rfl, named⟩ := forall₂_ofFile_iff.mp related
  have found : ∀ {id model}, project.get? id = some model ↔
      ∃ source ∈ sources, model = source.toModel settings ∧ id = modelId settings source.name := by
    rw [same]
    exact get?_ofNamed_iff checked.distinct
  refine ⟨?_, ?_, ?_, ?_, ?_, fun id => mem_nodes_iff loaded, fun parent child => edge_iff loaded⟩
  · have ids := checked.distinct.map (modelId_injective settings)
    rw [same, ofNamed, NameMap.size_ofList, List.length_map, List.length_map, List.length_map]
    simp only [List.map_map] at ids ⊢
    exact ids
  · intro file listed
    obtain ⟨source, member, rfl⟩ := List.mem_map.mp listed
    exact ⟨source.toModel settings, found.mpr ⟨source, member, rfl, rfl⟩, rfl, rfl,
      named source member⟩
  · intro id model here
    obtain ⟨source, member, rfl, rfl⟩ := found.mp here
    exact ⟨rfl, rfl, List.mem_map_of_mem member⟩
  · intro id model here
    obtain ⟨source, member, rfl, rfl⟩ := found.mp here
    exact (ModelCalls.nodup_modelNames _).map (modelId_injective settings)
  · intro id model here parent
    refine ⟨?_, exists_read loaded here⟩
    obtain ⟨source, member, rfl, rfl⟩ := found.mp here
    simp only [Source.toModel, List.mem_map, ModelCalls.mem_modelNames]
    constructor
    · rintro ⟨name, ⟨package, read⟩, rfl⟩
      exact ⟨package, name, read, rfl⟩
    · rintro ⟨package, name, read, rfl⟩
      exact ⟨name, ⟨package, read⟩, rfl⟩

/-- Files can be loaded exactly if the path of each has a stem that is a text, these names are
different, every model that a call reads is among them, and no model reads itself through others.
The project then holds one model for each file, and the files in any other order make the same
project or fail as well. -/
theorem ofSources_validates (settings : Settings) (files : List (FilePath × String)) :
    ((∃ project, ofSources settings files = .ok project) ↔ Consistent files) ∧
      (∀ project, ofSources settings files = .ok project → Holds settings files project) ∧
      ∀ others, files.Perm others → ∀ project,
        ofSources settings files = .ok project ↔ ofSources settings others = .ok project :=
  ⟨exists_ofSources_iff, fun _ loaded => holds_ofSources loaded,
    fun _ same _ => ⟨ofSources_of_perm same, ofSources_of_perm same.symm⟩⟩

/-- Two files, of which the second one reads the first one, make the same project in both orders. -/
theorem ofSources_validates_swapped :
    let first : FilePath × String := ("models/a.sql", "select 1")
    let second : FilePath × String := ("models/b.sql", "select * from \x7b\x7b ref('a') \x7d\x7d")
    ∃ project, ofSources (.default "") [first, second] = .ok project ∧
      ofSources (.default "") [second, first] = .ok project ∧ Consistent [second, first] ∧
      Holds (.default "") [second, first] project := by
  intro first second
  obtain ⟨project, loaded, -⟩ := exists_loaded (.default "") [first, second] (fun _ => true)
    (by decide +kernel)
  have swapped : [first, second].Perm [second, first] := .swap second first []
  obtain ⟨-, -, order⟩ := ofSources_validates (.default "") [first, second]
  have reloaded := (order _ swapped project).mp loaded
  obtain ⟨accepts, holds, -⟩ := ofSources_validates (.default "") [second, first]
  exact ⟨project, loaded, reloaded, accepts.mp ⟨project, reloaded⟩, holds project reloaded⟩

end Project
end SqlPipeline
