import SqlPipeline.Proofs.Build.Order

/-!
# How far a change of one model reaches

A model shows in others only where it is inlined.  So when a model gets another text with the same
calls, the results change at most for the model itself and for the models that inline it, directly
or through ephemeral models.
-/

namespace SqlPipeline
namespace Project

variable {settings : Settings} {files : List (FilePath × String)} {project changed : Project}
  {first second compiled : Compilation} {id text : String} {model parent : Model}

/-- The first model is ephemeral, and the second one reads it. -/
def Embeds (project : Project) (parent child : String) : Prop :=
  ∃ embedded reader, project.get? parent = some embedded ∧
    Materialization.ofText embedded.materialized = .ephemeral ∧
    project.get? child = some reader ∧ parent ∈ reader.dependsOn

/-- A path of reads leads from the first model to the second one on which the first one and all
models in between are ephemeral. -/
def Inlines (project : Project) : String → String → Prop := Relation.TransGen project.Embeds

/-- What stands for a model that is not ephemeral is its relation, whether it compiled or not. -/
theorem reference?_of_lasting (loaded : ofSources settings files = .ok project)
    (settled : project.Settled compiled) (found : project.get? id = some parent)
    (lasting : Materialization.ofText parent.materialized ≠ .ephemeral) :
    project.reference? compiled id =
      some (parent.name, (renderRelation (project.relationOf parent)).map some) := by
  have entry := settled id
  rw [found, Option.map_some] at entry
  rw [reference?, found, Option.map_some, referenceText, get?_ofSources loaded found, entry]
  cases run : project.compileModel compiled parent with
  | error error => simp [lasting]
  | ok built => simp [(compiledFrom_of_compileModel run).materialization, lasting]

section

variable {others : List (FilePath × String)} (loaded : ofSources settings files = .ok project)
  (reloaded : ofSources settings others = .ok changed)
  (rewritten : Rewritten id text project changed)
  (settled : project.Settled first) (resettled : changed.Settled second)

include loaded reloaded rewritten settled resettled

/-- What stands for a model that is not ephemeral does not depend on its text. -/
theorem Rewritten.reference?_of_lasting {read : String} (found : project.get? read = some parent)
    (lasting : Materialization.ofText parent.materialized ≠ .ephemeral) :
    changed.reference? second read = project.reference? first read := by
  obtain ⟨sql, digest, held⟩ := rewritten.exists_get? found
  rw [Project.reference?_of_lasting loaded settled found lasting,
    Project.reference?_of_lasting reloaded resettled held lasting]
  simp only [relationOf, rewritten.settings]

/-- A model that does not inline the one with the new text has the same result as before. -/
theorem Rewritten.get?_eq {name : String} (different : name ≠ id)
    (apart : ¬ project.Inlines id name) : second.get? name = first.get? name := by
  induction name using (acyclic_ofSources loaded).induction with
  | _ name ih =>
    rw [settled name, resettled name, rewritten.others name different]
    cases found : project.get? name with
    | none => rfl
    | some model =>
      refine congrArg some (compileModel_congr rewritten.settings fun read reads => ?_)
      obtain ⟨parent, held⟩ := exists_read loaded found reads
      by_cases ephemeral : Materialization.ofText parent.materialized = .ephemeral
      · have embeds : project.Embeds read name := ⟨parent, model, held, ephemeral, found, reads⟩
        have other : read ≠ id := fun same => apart (.single (same ▸ embeds))
        have away : ¬ project.Inlines id read := fun path => apart (path.tail embeds)
        have edge := (edge_iff loaded).mpr ⟨model, found, reads⟩
        exact reference?_congr loaded rewritten.settings (rewritten.others read other)
          (ih read (.single edge) other away)
      · exact rewritten.reference?_of_lasting loaded reloaded settled resettled held ephemeral

end

/-- If a model gets another text with the same calls, the project still loads, and every other model
that does not inline this one has the same result as before, be it a compiled model or an error. -/
theorem compile_local {before after : List (FilePath × String)} {path : FilePath}
    {name sql : String} (named : path.fileStem? = some name)
    (same : ModelCalls.ofText sql = ModelCalls.ofText text)
    (loaded : ofSources settings (before ++ (path, sql) :: after) = .ok project) :
    ∃ changed, ofSources settings (before ++ (path, text) :: after) = .ok changed ∧
      ∀ other, other ≠ modelId settings name →
        ¬ project.Inlines (modelId settings name) other →
        changed.compile.get? other = project.compile.get? other := by
  obtain ⟨changed, reloaded, rewritten⟩ := exists_rewritten named same loaded
  exact ⟨changed, reloaded, fun other different apart =>
    rewritten.get?_eq loaded reloaded (settled_compile loaded) (settled_compile reloaded)
      different apart⟩

/-- The files of a model that reads an ephemeral one, and of a third one that reads the second. -/
def readers : List (FilePath × String) :=
  [("models/b.sql", "select * from \x7b\x7b ref('a') \x7d\x7d"),
    ("models/c.sql", "select * from \x7b\x7b ref('b') \x7d\x7d")]

/-- A fault in the ephemeral model does not reach the third model, which reads only a relation. -/
theorem compile_local_third :
    let settings := Settings.default ""
    let ephemeral := "\x7b\x7b config(materialized='ephemeral') \x7d\x7d"
    let first := "model.modelflow_project.a"
    let third := "model.modelflow_project.c"
    ∃ project changed,
      ofSources settings (("models/a.sql", ephemeral ++ "select 1") :: readers) = .ok project ∧
      ofSources settings (("models/a.sql", ephemeral ++ "\x7b% oops %\x7d") :: readers) =
        .ok changed ∧
      ¬ project.Inlines first third ∧ changed.compile.get? third = project.compile.get? third := by
  intro settings ephemeral first third
  let files : List (FilePath × String) := ("models/a.sql", ephemeral ++ "select 1") :: readers
  let second := "model.modelflow_project.b"
  obtain ⟨project, loaded, passes⟩ := exists_loaded settings files
    (fun project : Project =>
      ((project.get? second).all fun model : Model =>
        decide (Materialization.ofText model.materialized ≠ .ephemeral)) &&
      ((project.get? third).all fun model : Model => decide (model.dependsOn = [second])))
    (by decide +kernel)
  obtain ⟨lasting, reads⟩ := (Bool.and_eq_true_iff.mp passes)
  have apart : ¬ project.Inlines first third := by
    intro path
    obtain ⟨middle, -, embedded, reader, held, ephemeral, found, member⟩ :=
      Relation.TransGen.tail'_iff.mp path
    rw [found, Option.all_some, decide_eq_true_eq] at reads
    rw [reads, List.mem_singleton] at member
    rw [← member, held, Option.all_some, decide_eq_true_eq] at lasting
    exact lasting ephemeral
  have named : FilePath.fileStem? "models/a.sql" = some "a" := by decide
  have calls : ModelCalls.ofText (ephemeral ++ "select 1") =
      ModelCalls.ofText (ephemeral ++ "\x7b% oops %\x7d") := by decide +kernel
  have listed : ofSources settings
      ([] ++ (.text "models/a.sql", ephemeral ++ "select 1") :: readers) = .ok project := loaded
  obtain ⟨changed, reloaded, same⟩ := compile_local named calls listed
  exact ⟨project, changed, loaded, reloaded, apart, same third (by decide) apart⟩

end Project
end SqlPipeline
