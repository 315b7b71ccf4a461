import SqlPipeline.Model.Manifest
import SqlPipeline.Proofs.Model.Loading

/-!
# Snapshots and their graphs

The graph of a project and those of its snapshot, with the map of parents or without it, are built
in different ways, but the same edges are added in the same order.
-/

namespace SqlPipeline

namespace Manifest

variable {manifest : Manifest}

open SqlPipeline.Graph

/-- With a map of parents, the nodes come first, and then each of them with its parents. -/
theorem graph_of_parents (given : manifest.parents.isEmpty = false) :
    manifest.graph =
      build (manifest.nodes.keys.map .node ++ readings manifest.parents.entries) := by
  simp only [graph, given, build, readings, List.foldl_append, List.foldl_map, List.foldl_flatMap,
    List.foldl_cons]
  rfl

/-- Without a map of parents, the edges come first, and then the nodes. -/
theorem graph_of_isEmpty (none : manifest.parents.isEmpty = true) :
    manifest.graph = build ((manifest.nodes.entries.flatMap fun entry =>
      entry.2.dependsOn.map (.edge · entry.1)) ++ manifest.nodes.keys.map .node) := by
  simp only [graph, none, build, List.foldl_append, List.foldl_map, List.foldl_flatMap]
  rfl

end Manifest

namespace Project

variable {settings : Settings} {files : List (FilePath × String)} {project : Project}

open SqlPipeline.Graph

/-- Every model with the models that it reads. -/
def reads (project : Project) : List (String × List String) :=
  project.models.entries.map fun entry => (entry.1, entry.2.dependsOn)

theorem graph_eq_build_reads (loaded : ofSources settings files = .ok project) :
    project.graph = build (readings project.reads) := by
  have own : project.reads =
      project.models.values.map fun model => (model.id, model.dependsOn) := by
    rw [reads, NameMap.values, List.map_map]
    refine List.map_congr_left fun entry member => ?_
    have same : entry.2.id = entry.1 := get?_ofSources loaded (NameMap.get?_eq_some_iff.mpr member)
    rw [Function.comp, same]
  rw [graph_eq_build, own]

end Project

namespace Manifest

variable {settings : Settings} {files : List (FilePath × String)} {project : Project}

open SqlPipeline.Graph

/-- Any manifest with the models of a project as its nodes, whose map of parents is empty or that of
what they read, has the graph of the project. -/
theorem graph_eq_of_nodes {manifest : Manifest}
    (loaded : Project.ofSources settings files = .ok project)
    (nodes : manifest.nodes = project.models.mapValues fun _ => nodeOf project)
    (parents : manifest.parents.isEmpty = true ∨
      manifest.parents = project.models.mapValues fun _ model => model.dependsOn) :
    manifest.graph = project.graph := by
  have keys : manifest.nodes.keys.map Addition.node =
      project.reads.map fun entry => .node entry.1 := by
    rw [nodes, NameMap.keys_mapValues, NameMap.keys, Project.reads, List.map_map, List.map_map]
    rfl
  cases none : manifest.parents.isEmpty with
  | true =>
    have edges : (manifest.nodes.entries.flatMap fun entry =>
          entry.2.dependsOn.map fun parent => Addition.edge parent entry.1) =
        project.reads.flatMap fun entry => entry.2.map (.edge · entry.1) := by
      rw [nodes, NameMap.mapValues, Project.reads, List.flatMap_map, List.flatMap_map]
      rfl
    rw [graph_of_isEmpty none, keys, edges, build_edges_append_nodes,
      Project.graph_eq_build_reads loaded]
  | false =>
    have given := parents.resolve_left (by simp [none])
    have entries : manifest.parents.entries = project.reads := by
      rw [given]
      rfl
    rw [graph_of_parents none, keys, entries, build_nodes_append_readings,
      Project.graph_eq_build_reads loaded]

/-- A snapshot without its maps of parents and children. -/
def withoutMaps (manifest : Manifest) : Manifest :=
  { manifest with parents := .empty, children := .empty }

/-- Whenever the files of a project are accepted, the graph of the project, the graph of its
snapshot and the graph of that snapshot without its maps of parents and children are one graph. 
They have the same nodes, list the parents and the children of every node in the same order, and so
agree on what lies above and below a node, on the order of all nodes and on the cycle that is found.
-/
theorem graph_of_snapshot (loaded : Project.ofSources settings files = .ok project)
    (generatedAt : String) :
    ∀ graph ∈ [(ofProject project generatedAt).graph,
        (ofProject project generatedAt).withoutMaps.graph],
      graph = project.graph ∧ graph.nodes = project.graph.nodes ∧
      (∀ name, graph.parents name = project.graph.parents name ∧
        graph.children name = project.graph.children name ∧
        graph.ancestors name = project.graph.ancestors name ∧
        graph.descendants name = project.graph.descendants name) ∧
      graph.topologicalSort? = project.graph.topologicalSort? ∧
      graph.findCycle? = project.graph.findCycle? := by
  have complete : (ofProject project generatedAt).graph = project.graph :=
    graph_eq_of_nodes loaded rfl (.inr rfl)
  have bare : (ofProject project generatedAt).withoutMaps.graph = project.graph :=
    graph_eq_of_nodes loaded rfl (.inl rfl)
  intro graph built
  have same : graph = project.graph := by
    rcases List.mem_cons.mp built with rfl | last
    · exact complete
    · rw [List.mem_singleton.mp last, bare]
  subst same
  exact ⟨rfl, rfl, fun name => ⟨rfl, rfl, rfl, rfl⟩, rfl, rfl⟩

/-- The files of a model that reads two others, the later one first, and of one that stands alone.
-/
def joinFiles : List (FilePath × String) :=
  [("models/a.sql", "select 1"), ("models/b.sql", "select 2"),
    ("models/c.sql", "select * from \x7b\x7b ref('b') \x7d\x7d, \x7b\x7b ref('a') \x7d\x7d"),
    ("models/d.sql", "select 3")]

/-- The graph of their snapshot lists the parents in the order in which they are read. -/
theorem graph_of_snapshot_join :
    ∃ project, Project.ofSources (.default "") joinFiles = .ok project ∧
      (ofProject project "").graph = project.graph ∧
      (ofProject project "").withoutMaps.graph.parents "model.modelflow_project.c" =
        ["model.modelflow_project.b", "model.modelflow_project.a"] := by
  obtain ⟨project, loaded, passes⟩ := Project.exists_loaded (.default "") joinFiles
    (fun project => decide (project.graph.parents "model.modelflow_project.c" =
      ["model.modelflow_project.b", "model.modelflow_project.a"]))
    (by decide +kernel)
  have agrees := graph_of_snapshot loaded ""
  obtain ⟨same, -⟩ := agrees _ List.mem_cons_self
  obtain ⟨-, -, lists, -⟩ := agrees _ (List.mem_cons_of_mem _ List.mem_cons_self)
  exact ⟨project, loaded, same, (lists _).1.trans (of_decide_eq_true passes)⟩

end Manifest
end SqlPipeline
