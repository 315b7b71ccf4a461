import SqlPipeline.Proofs.Model.Loading

/-!
# Finding a model by its id or its name

A key is looked up among the ids of a project first and among the names of its models only if it is
no id.  An id is therefore always found, and a name is found unless it is the id of another model:
the name of a file may spell such an id, since dots are allowed in it.
-/

namespace SqlPipeline

namespace Project

variable {settings : Settings} {files : List (FilePath × String)} {project : Project}
  {model other : Model} {key name id : String}

/-- An id is longer than the name that it is made from. -/
theorem modelId_ne (settings : Settings) (name : String) : modelId settings name ≠ name := by
  intro same
  have lengths := congrArg String.length same
  have front : "model.".length = 6 := by decide
  simp only [modelId, String.length_append, front] at lengths
  omega

theorem get?_id_of_mem (loaded : ofSources settings files = .ok project)
    (listed : model ∈ project.models.values) : project.get? model.id = some model := by
  obtain ⟨key, found⟩ := NameMap.mem_values.mp listed
  rwa [get?_ofSources loaded found]

theorem id_eq_modelId (loaded : ofSources settings files = .ok project)
    (listed : model ∈ project.models.values) : model.id = modelId settings model.name :=
  (id_of_get? loaded (get?_id_of_mem loaded listed)).2

/-- A key that is the id of no model stands for none as an id. -/
theorem get?_eq_none_iff (loaded : ofSources settings files = .ok project) :
    project.get? key = none ↔ ∀ model ∈ project.models.values, model.id ≠ key := by
  constructor
  · rintro absent model listed rfl
    rw [get?_id_of_mem loaded listed] at absent
    cases absent
  · intro others
    cases found : project.get? key with
    | none => rfl
    | some model =>
      have listed : model ∈ project.models.values := NameMap.mem_values.mpr ⟨key, found⟩
      exact absurd (get?_ofSources loaded found) (others model listed)

/-- Under the name of every model its id is kept. -/
theorem get?_ids_of_mem (loaded : ofSources settings files = .ok project)
    (listed : model ∈ project.models.values) : project.ids.get? model.name = some model.id := by
  obtain ⟨sources, -, checked, rfl⟩ := ofSources_eq_ok_iff.mp loaded
  obtain ⟨key, found⟩ := NameMap.mem_values.mp listed
  obtain ⟨source, there, rfl, -⟩ := (get?_ofNamed_iff checked.distinct).mp found
  have distinct : ((sources.map fun source =>
      (source.name, modelId settings source.name)).map (·.1)).Nodup := by
    rw [List.map_map]
    exact checked.distinct
  have entries : (ofNamed settings sources).ids = .ofList (sources.map fun source =>
      (source.name, modelId settings source.name)) := by
    simp only [ofNamed, List.map_map]
    rfl
  rw [entries, NameMap.get?_ofList_iff distinct]
  exact List.mem_map.mpr ⟨source, there, rfl⟩

theorem find?_of_get? (found : project.get? key = some model) :
    project.find? key = some model := by
  rw [find?, found, Option.some_or]

theorem find?_name_of_get?_eq_none (loaded : ofSources settings files = .ok project)
    (listed : model ∈ project.models.values) (free : project.get? model.name = none) :
    project.find? model.name = some model := by
  rw [find?, free, Option.none_or, get?_ids_of_mem loaded listed, Option.bind_some,
    get?_id_of_mem loaded listed]

/-- Every model of a loaded project is found by its id.  It is found by its name as well, unless the
name is the id of a model, which then is another one and is found in its place. -/
theorem find?_id_and_name (loaded : ofSources settings files = .ok project)
    (listed : model ∈ project.models.values) :
    project.find? model.id = some model ∧
    ((∀ other ∈ project.models.values, other.id ≠ model.name) →
      project.find? model.name = some model) ∧
    ∀ other ∈ project.models.values, other.id = model.name →
      other ≠ model ∧ project.find? model.name = some other := by
  refine ⟨find?_of_get? (get?_id_of_mem loaded listed), fun free => ?_, fun other there same => ?_⟩
  · exact find?_name_of_get?_eq_none loaded listed ((get?_eq_none_iff loaded).mpr free)
  · constructor
    · rintro rfl
      rw [id_eq_modelId loaded listed] at same
      exact modelId_ne settings _ same
    · rw [← same]
      exact find?_of_get? (get?_id_of_mem loaded there)

/-- Two files of which the second one is named like the id of the first one. -/
def clashingFiles : List (FilePath × String) :=
  [("models/a.sql", "select 1"), ("models/model.modelflow_project.a.sql", "select 2")]

theorem exists_clashing :
    ∃ project first second, ofSources (.default "") clashingFiles = .ok project ∧
      first ∈ project.models.values ∧ second ∈ project.models.values ∧
      first.id = "model.modelflow_project.a" ∧ first.name = "a" ∧
      second.id = "model.modelflow_project.model.modelflow_project.a" ∧
      second.name = "model.modelflow_project.a" := by
  obtain ⟨project, loaded, passes⟩ := exists_loaded (.default "") clashingFiles
    (fun project => decide (project.models.values.map (fun model => (model.id, model.name)) =
      [("model.modelflow_project.a", "a"),
        ("model.modelflow_project.model.modelflow_project.a", "model.modelflow_project.a")]))
    (by decide +kernel)
  have listing := of_decide_eq_true passes
  have found : ∀ id name, (id, name) ∈ [("model.modelflow_project.a", "a"),
        ("model.modelflow_project.model.modelflow_project.a", "model.modelflow_project.a")] →
      ∃ model ∈ project.models.values, model.id = id ∧ model.name = name := by
    intro id name member
    rw [← listing, List.mem_map] at member
    obtain ⟨model, listed, same⟩ := member
    obtain ⟨rfl, rfl⟩ := Prod.mk.inj same
    exact ⟨model, listed, rfl, rfl⟩
  obtain ⟨first, first_listed, first_id, first_name⟩ := found _ _ List.mem_cons_self
  obtain ⟨second, second_listed, second_id, second_name⟩ :=
    found _ _ (List.mem_cons_of_mem _ List.mem_cons_self)
  exact ⟨project, first, second, loaded, first_listed, second_listed, first_id, first_name,
    second_id, second_name⟩

/-- The first of the two models is found by its name and by its id, which is also the name of the
second one. -/
theorem find?_id_and_name_clashing :
    ∃ project first second, ofSources (.default "") clashingFiles = .ok project ∧
      first ∈ project.models.values ∧ second ∈ project.models.values ∧
      (∀ other ∈ project.models.values, other.id ≠ first.name) ∧ first.id = second.name ∧
      project.find? "a" = some first ∧
      project.find? "model.modelflow_project.a" = some first ∧
      project.find? "model.modelflow_project.model.modelflow_project.a" = some second := by
  obtain ⟨project, first, second, loaded, first_listed, second_listed, first_id, first_name,
    second_id, second_name⟩ := exists_clashing
  have free : ∀ other ∈ project.models.values, other.id ≠ first.name := by
    intro other listed same
    rw [id_eq_modelId loaded listed, first_name] at same
    have initials := congrArg (fun text : String => text.toList.head?) same
    simp [modelId] at initials
  have same : first.id = second.name := first_id.trans second_name.symm
  obtain ⟨by_id, by_name, -⟩ := find?_id_and_name loaded first_listed
  obtain ⟨second_by_id, -, clash⟩ := find?_id_and_name loaded second_listed
  refine ⟨project, first, second, loaded, first_listed, second_listed, free, same, ?_, ?_, ?_⟩
  · rw [← first_name]
    exact by_name free
  · rw [← second_name]
    exact (clash first first_listed same).2
  · rw [← second_id]
    exact second_by_id

/-- A model whose name is the id of another one is not found by its name. -/
theorem find?_name_of_other :
    ∃ project model, ofSources (.default "") clashingFiles = .ok project ∧
      model ∈ project.models.values ∧ project.find? model.name ≠ some model := by
  obtain ⟨project, first, second, loaded, first_listed, second_listed, first_id, first_name,
    second_id, second_name⟩ := exists_clashing
  refine ⟨project, second, loaded, second_listed, fun found => ?_⟩
  rw [second_name, ← first_id, find?_of_get? (get?_id_of_mem loaded first_listed)] at found
  obtain rfl := Option.some.inj found
  rw [first_name] at second_name
  exact absurd second_name (by decide)

end Project
end SqlPipeline
