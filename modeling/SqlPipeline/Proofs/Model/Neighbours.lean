import SqlPipeline.Model.Manifest
import SqlPipeline.Proofs.Graph.Order
import SqlPipeline.Proofs.Model.Validation
import SqlPipeline.Proofs.Sorting

/-!
# The maps of a snapshot

A snapshot lists for every model the models that it reads, as the model itself lists them, and the
models that read it, as the graph lists them.  The two maps hold the same edges, seen from both
ends.
-/

namespace SqlPipeline

/-- A map of lists has a name in the list of an id. -/
def NameMap.Lists (map : NameMap (List String)) (id name : String) : Prop :=
  ∃ names, map.get? id = some names ∧ name ∈ names

namespace Manifest

variable {settings : Settings} {files : List (FilePath × String)} {project : Project}
  {id parent child : String}

/-- The nodes of a manifest have the given ids, and its maps say of the same pairs of them that one
reads the other. -/
structure Mutual (ids : List String) (manifest : Manifest) : Prop where
  nodes : manifest.nodes.keys = ids
  parents : manifest.parents.keys = ids
  children : manifest.children.keys = ids
  /-- The map of parents repeats what the nodes depend on. -/
  depends : ∀ id node, manifest.nodes.get? id = some node →
    manifest.parents.get? id = some node.dependsOn
  /-- Nothing is listed that is no node. -/
  closed : ∀ id name, manifest.parents.Lists id name ∨ manifest.children.Lists id name → name ∈ ids
  mirror : ∀ parent child,
    manifest.children.Lists parent child ↔ manifest.parents.Lists child parent
  nodup : ∀ id names,
    manifest.parents.get? id = some names ∨ manifest.children.get? id = some names → names.Nodup
  ascending : ∀ id names, manifest.children.get? id = some names → names.Pairwise (· < ·)

theorem keys_models (loaded : Project.ofSources settings files = .ok project) :
    project.models.keys = project.models.values.map (·.id) := by
  rw [NameMap.keys, NameMap.values, List.map_map]
  refine List.map_congr_left fun entry member => ?_
  have found : project.get? entry.1 = some entry.2 := NameMap.get?_eq_some_iff.mpr member
  exact (Project.get?_ofSources loaded found).symm

/-- In the map of parents a model is listed under the models that read it. -/
theorem parents_lists_iff (project : Project) (generatedAt : String) :
    (ofProject project generatedAt).parents.Lists child parent ↔
      ∃ model, project.get? child = some model ∧ parent ∈ model.dependsOn := by
  simp only [NameMap.Lists, ofProject, NameMap.get?_mapValues, Option.map_eq_some_iff]
  constructor
  · rintro ⟨_, ⟨model, found, rfl⟩, reads⟩
    exact ⟨model, found, reads⟩
  · rintro ⟨model, found, reads⟩
    exact ⟨_, ⟨model, found, rfl⟩, reads⟩

/-- In the map of children a model is listed under the models that the graph has edges from. -/
theorem children_lists_iff (project : Project) (generatedAt : String) :
    (ofProject project generatedAt).children.Lists parent child ↔
      (∃ model, project.get? parent = some model) ∧ project.graph.Edge parent child := by
  simp only [NameMap.Lists, ofProject, NameMap.get?_mapValues, Option.map_eq_some_iff]
  constructor
  · rintro ⟨_, ⟨model, found, rfl⟩, member⟩
    rw [(sorted_perm _ _).mem_iff, Graph.mem_children] at member
    exact ⟨⟨model, found⟩, member⟩
  · rintro ⟨⟨model, found⟩, edge⟩
    refine ⟨_, ⟨model, found, rfl⟩, ?_⟩
    rw [(sorted_perm _ _).mem_iff, Graph.mem_children]
    exact edge

/-- In the snapshot of every project that loads, the nodes, the map of parents and the map of
children have the ids of the models as their keys and list nothing else, one model is listed as a
child of another just if that one is listed as its parent, and the lists have no repetitions; that
of parents is what the node depends on, and that of children ascends. -/
theorem maps_mirror (loaded : Project.ofSources settings files = .ok project)
    (generatedAt : String) :
    (ofProject project generatedAt).Mutual (project.models.values.map (·.id)) := by
  have holds := Project.holds_ofSources loaded
  have mirror : ∀ parent child, (ofProject project generatedAt).children.Lists parent child ↔
      (ofProject project generatedAt).parents.Lists child parent := by
    intro parent child
    rw [children_lists_iff, parents_lists_iff, ← holds.edges]
    refine and_iff_right_of_imp fun edge => ?_
    obtain ⟨model, found, reads⟩ := (holds.edges parent child).mp edge
    exact ((holds.reads child model found parent).2 reads)
  have listed : ∀ {id name}, (ofProject project generatedAt).parents.Lists id name →
      id ∈ project.models.keys ∧ name ∈ project.models.keys := by
    intro id name there
    obtain ⟨model, found, reads⟩ := (parents_lists_iff project generatedAt).mp there
    exact ⟨NameMap.mem_keys.mpr ⟨model, found⟩,
      NameMap.mem_keys.mpr ((holds.reads id model found name).2 reads)⟩
  rw [← keys_models loaded]
  refine
    { nodes := NameMap.keys_mapValues ..
      parents := NameMap.keys_mapValues ..
      children := NameMap.keys_mapValues ..
      depends := ?_, closed := ?_, mirror := mirror, nodup := ?_, ascending := ?_ }
  · intro id node found
    simp only [ofProject, NameMap.get?_mapValues, Option.map_eq_some_iff] at found ⊢
    obtain ⟨model, found, rfl⟩ := found
    exact ⟨model, found, rfl⟩
  · rintro id name (there | there)
    · exact (listed there).2
    · exact (listed ((mirror id name).mp there)).1
  · intro id names found
    simp only [ofProject, NameMap.get?_mapValues, Option.map_eq_some_iff] at found
    rcases found with ⟨model, found, rfl⟩ | ⟨model, -, rfl⟩
    · exact holds.nodup id model found
    · exact (sorted_perm _ _).nodup_iff.mpr (Graph.nodup_children _ id)
  · intro id names found
    simp only [ofProject, NameMap.get?_mapValues, Option.map_eq_some_iff] at found
    obtain ⟨model, -, rfl⟩ := found
    exact pairwise_lt_sorted (Graph.nodup_children _ id)

/-- The files of two models that both read a third one, one of them twice. -/
def forkFiles : List (FilePath × String) :=
  [("models/c.sql", "select * from \x7b\x7b ref('a') \x7d\x7d, \x7b\x7b ref('a') \x7d\x7d"),
    ("models/b.sql", "select * from \x7b\x7b ref('a') \x7d\x7d"), ("models/a.sql", "select 1")]

/-- Their snapshot lists both readers as children of the model that they read, in order. -/
theorem maps_mirror_fork :
    ∃ project, Project.ofSources (.default "") forkFiles = .ok project ∧
      (ofProject project "").Mutual (project.models.values.map (·.id)) ∧
      (ofProject project "").children.get? "model.modelflow_project.a" =
        some ["model.modelflow_project.b", "model.modelflow_project.c"] := by
  obtain ⟨project, loaded, passes⟩ := Project.exists_loaded (.default "") forkFiles
    (fun project => decide ((ofProject project "").children.get? "model.modelflow_project.a" =
      some ["model.modelflow_project.b", "model.modelflow_project.c"]))
    (by decide +kernel)
  exact ⟨project, loaded, maps_mirror loaded "", of_decide_eq_true passes⟩

end Manifest
end SqlPipeline
