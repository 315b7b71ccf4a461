import SqlPipeline.Proofs.CommandLine.Effect
import SqlPipeline.Proofs.Run.Sequence

/-!
# Listing models in the order of a run

The selected models are listed in the order of the topological sort, which is also the order in
which all models are compiled.  A run of all models on one thread in which every node succeeds takes
them in the same order.
-/

namespace SqlPipeline.CommandLine

variable {settings : Settings} {selection : Selection} {project : Project} {console : Console}
  {selected : NameSet} {ids order : List String}

/-- The line of a model in a listing. -/
def listingLine (id : String) (model : Model) : String :=
  id ++ " [" ++ (Materialization.ofText model.materialized).text ++ "] " ++ model.path.shown

/-- The lines of a listing, one for each id of a model. -/
def listingLines (project : Project) (ids : List String) : List String :=
  ids.filterMap fun id => (project.get? id).map (listingLine id)

/-- The console after some lines have been printed. -/
def Console.printed (console : Console) (lines : List String) : Console :=
  { console with out := console.out ++ String.join (lines.map (· ++ "\n")) }

theorem Console.printed_cons (console : Console) (line : String) (lines : List String) :
    console.printed (line :: lines) =
      { console with out := console.out ++ line ++ "\n" }.printed lines := by
  simp [printed, String.join_cons, String.append_assoc]

/-- A loop over ids prints their lines in order. -/
theorem outcome_listing (project : Project) (ids : List String) (console : Console) :
    Session.outcome (do
      for id in ids do
        match project.get? id with
        | none => pure ()
        | some model => printLine (listingLine id model)) console =
      (.ok (), console.printed (listingLines project ids)) := by
  induction ids generalizing console with
  | nil => simp [Session.outcome, listingLines, Console.printed]; rfl
  | cons id ids ih =>
    rw [List.forIn_cons]
    cases found : project.get? id with
    | none =>
      rw [listingLines, List.filterMap_cons_none (by rw [found]; rfl)]
      exact ih console
    | some model =>
      rw [listingLines, List.filterMap_cons_some (by rw [found]; rfl), Console.printed_cons]
      exact ih { console with out := console.out ++ listingLine id model ++ "\n" }

/-- The selected models are listed in topological order. -/
theorem outcome_listModels (loaded : Project.load settings console.tree = .ok project)
    (choice : project.select selection.select selection.exclude = .ok selected)
    (sorted : project.graph.topologicalSort? = some order) :
    (listModels settings selection).outcome console =
      (.ok (), console.printed (listingLines project (order.filter selected.contains))) := by
  unfold listModels
  rw [Session.outcome_loadProject_bind, Session.outcome_orFail_bind, loaded]
  dsimp only
  rw [Session.outcome_orFail_bind, choice]
  dsimp only
  rw [sorted]
  exact outcome_listing project _ console

/-- The line tells a model of the project. -/
def TellsModel (project : Project) (id line : String) : Prop :=
  ∃ model, project.get? id = some model ∧ line = listingLine id model

theorem forall₂_listingLines (present : ∀ id ∈ ids, ∃ model, project.get? id = some model) :
    List.Forall₂ (TellsModel project) ids (listingLines project ids) := by
  induction ids with
  | nil => exact .nil
  | cons id ids ih =>
    obtain ⟨⟨model, found⟩, rest⟩ := List.forall_mem_cons.mp present
    rw [listingLines, List.filterMap_cons_some (by rw [found]; rfl)]
    exact .cons ⟨model, found, rfl⟩ (ih rest)

/-- A run on one thread ends, whatever the graph, the selection, the command, the executor and the
order in which nodes are executed and complete.  If every node succeeds, the results are in the
least order of the selected nodes in which each of them stands after all selected nodes that precede
it in the whole graph.  If every node is selected, that is the topological order of the graph, in
which the models of a project are compiled and in which one line for each of them is printed when
all are listed. -/
theorem runs_in_listed_order {σ : Type} {compiled : Compilation} (made : compiled.Made)
    {plan : RunPlan} (single : plan.threads ≤ 1) (graph : Graph) (selected : NameSet)
    (executor : Executor σ) (state : σ) (order : Nat → Nat) :
    ∃ final, plan.run graph compiled selected executor state order = .ok final ∧
      ((∀ result ∈ final.results, result.status = .success) →
        graph.IsLeastOrder (selected.filter graph.contains) (final.results.map (·.id)) ∧
        ((∀ name ∈ graph.nodes, name ∈ selected) →
          graph.topologicalSort? = some (final.results.map (·.id)) ∧
          ∀ project : Project, project.graph = graph →
            project.compile = project.compileInOrder (final.results.map (·.id)) .empty ∧
            ∀ (settings : Settings) (selection : Selection) (console : Console) (chosen : NameSet),
              Project.load settings console.tree = .ok project →
              project.select selection.select selection.exclude = .ok chosen →
              (∀ name ∈ graph.nodes, name ∈ chosen) →
              ∃ lines, List.Forall₂ (TellsModel project) (final.results.map (·.id)) lines ∧
                (listModels settings selection).outcome console =
                  (.ok (), console.printed lines))) := by
  obtain ⟨final, run, least⟩ :=
    RunPlan.exists_run_least made.keyed single graph selected executor state order
  refine ⟨final, run, fun succeeds => ⟨least succeeds, fun all => ?_⟩⟩
  have whole : selected.filter graph.contains = graph.nodes := by
    refine NameSet.ext_mem fun name => ?_
    rw [NameSet.mem_filter, Graph.contains_iff]
    exact and_iff_right_of_imp (all name)
  have least := whole ▸ least succeeds
  have sorted : graph.topologicalSort? = some (final.results.map (·.id)) :=
    Graph.topologicalSort?_eq_some_iff.mpr least
  refine ⟨sorted, ?_⟩
  rintro project rfl
  refine ⟨by rw [Project.compile, sorted, Option.getD_some], ?_⟩
  intro settings selection console chosen loaded choice listed
  have nodes : ∀ id ∈ final.results.map (·.id), id ∈ project.graph.nodes := fun id member =>
    least.isOrder.perm.mem_iff.mp member
  have kept : (final.results.map (·.id)).filter chosen.contains = final.results.map (·.id) :=
    List.filter_eq_self.mpr fun id member => NameSet.contains_iff.mpr (listed id (nodes id member))
  obtain ⟨sources, -, accepted⟩ := Project.load_eq_ok_iff.mp loaded
  refine ⟨_, forall₂_listingLines fun id member => ?_, ?_⟩
  · exact (Project.mem_nodes_iff accepted).mp (nodes id member)
  · rw [outcome_listModels loaded choice sorted, kept]

/-- One thread. -/
def onOneThread : RunPlan := { RunPlan.onTwoThreads with threads := 1 }

/-- The files of two models that read nothing and of one that reads the last of the three. -/
def lateTree : FileTree where
  entries := [
    (["p"], .directory),
    (["p", "models"], .directory),
    (["p", "models", "a.sql"], .text "select * from \x7b\x7b ref('z') \x7d\x7d"),
    (["p", "models", "b.sql"], .text "select 1"),
    (["p", "models", "z.sql"], .text "select 2")]
  workingDirectory := []

/-- The first model waits for the last one, which comes after the second one. -/
theorem runs_in_listed_order_late :
    let ids := ["model.modelflow_project.b", "model.modelflow_project.z",
      "model.modelflow_project.a"]
    ∃ project, Project.load (.default "p") lateTree = .ok project ∧
      ∃ final, onOneThread.run project.graph project.compile project.graph.nodes
          (.rehearsal .empty) () (fun _ => 0) = .ok final ∧
        final.results.map (·.id) = ids ∧
        ∃ lines, List.Forall₂ (TellsModel project) ids lines ∧
          (listModels (.default "p") ⟨[], []⟩).outcome ⟨lateTree, "", ""⟩ =
            (.ok (), Console.printed ⟨lateTree, "", ""⟩ lines) := by
  intro ids
  have passes : (Project.load (.default "p") lateTree).toOption.any (fun project =>
      ((onOneThread.run project.graph project.compile project.graph.nodes
        (.rehearsal .empty) () (fun _ => 0)).toOption.any fun final : Progress Unit =>
          final.results.all (·.status = .success) && decide (final.results.map (·.id) = ids)) &&
      (project.select [] []).toOption.any fun chosen =>
        project.graph.nodes.toList.all chosen.contains) = true := by decide +kernel
  cases loaded : Project.load (.default "p") lateTree with
  | error error =>
    rw [loaded] at passes
    cases passes
  | ok project =>
    obtain ⟨sources, -, accepted⟩ := Project.load_eq_ok_iff.mp loaded
    obtain ⟨final, run, ordered⟩ := runs_in_listed_order (.ofProject accepted project.settings)
      (show onOneThread.threads ≤ 1 from Nat.le_refl 1) project.graph project.graph.nodes
      (.rehearsal .empty) () fun _ => 0
    rw [loaded, Except.toOption, Option.any_some, run] at passes
    cases choice : project.select [] [] with
    | error error =>
      rw [choice] at passes
      simp [Except.toOption] at passes
    | ok chosen =>
      simp only [choice, Except.toOption, Option.any_some, Bool.and_eq_true, List.all_eq_true,
        decide_eq_true_iff, NameSet.contains_iff] at passes
      obtain ⟨⟨succeeds, same⟩, listed⟩ := passes
      obtain ⟨-, whole⟩ := ordered succeeds
      obtain ⟨-, listing⟩ := whole fun name member => member
      obtain ⟨lines, tells, printed⟩ :=
        (listing project rfl).2 (.default "p") ⟨[], []⟩ ⟨lateTree, "", ""⟩ chosen loaded choice
          listed
      exact ⟨project, rfl, final, run, same, lines, same ▸ tells, printed⟩

end SqlPipeline.CommandLine
