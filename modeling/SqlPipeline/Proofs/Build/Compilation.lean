import SqlPipeline.Build.Compilation
import SqlPipeline.Proofs.Model.Loading

/-!
# What a compilation holds

Compiling a project fills a map by the ids of its models.  Every entry is what compiling the model
with that id gave at some moment, so a compiled model carries the id under which it is found, and
its statement is the one that its materialization prescribes.
-/

namespace SqlPipeline

namespace Project

variable {settings : Settings} {files : List (FilePath × String)} {project : Project}
  {compiled : Compilation} {id : String} {result : CompileResult} {model : Model}
  {built : CompiledModel}

/-- Every entry of a compilation was there at the start, or it is what compiling the model with that
id gave after some of the others. -/
theorem get?_compileInOrder (ids : List String)
    (found : (project.compileInOrder ids compiled).get? id = some result) :
    compiled.get? id = some result ∨ ∃ model earlier,
      project.get? id = some model ∧ result = project.compileModel earlier model := by
  induction ids generalizing compiled with
  | nil => exact .inl found
  | cons next ids ih =>
    rw [compileInOrder] at found
    split at found
    · exact ih found
    next model held =>
      rcases ih found with earlier | later
      · rw [NameMap.get?_insert] at earlier
        split at earlier
        next same =>
          cases earlier
          exact .inr ⟨model, compiled, same ▸ held, rfl⟩
        next => exact .inl earlier
      · exact .inr later

theorem get?_compile (found : project.compile.get? id = some result) :
    ∃ model earlier, project.get? id = some model ∧
      result = project.compileModel earlier model := by
  rcases get?_compileInOrder _ found with none | entry
  · rw [NameMap.get?_empty] at none
    cases none
  · exact entry

/-- A compiled model takes over what identifies its model and how that is built, and it has the
statement that its materialization prescribes. -/
structure CompiledFrom (model : Model) (built : CompiledModel) : Prop where
  id : built.id = model.id
  name : built.name = model.name
  path : built.path = model.path
  materialization : built.materialization = Materialization.ofText model.materialized
  statement : built.statement = built.materialization.statement? built.relation built.sql

theorem compiledFrom_of_compileModel (run : project.compileModel compiled model = .ok built) :
    CompiledFrom model built := by
  obtain ⟨relation, -, run⟩ := bind_eq_ok_iff.mp run
  obtain ⟨context, -, run⟩ := bind_eq_ok_iff.mp run
  obtain ⟨rendered, -, run⟩ := bind_eq_ok_iff.mp run
  dsimp only at run
  obtain rfl := Except.ok.inj run
  constructor <;> dsimp only

/-- What a model compiles to is its text, rendered with its context at its own relation. -/
structure RenderedFrom (project : Project) (compiled : Compilation) (model : Model)
    (context : Template.RenderContext) (built : CompiledModel) : Prop where
  relation : renderRelation (project.relationOf model) = .ok built.relation
  bound : project.contextOf compiled model built.relation = .ok context
  sql : (Template.renderModel model.rawSql context (some model.path.shown)).map (·.text) =
    .ok built.sql

theorem renderedFrom_of_compileModel (run : project.compileModel compiled model = .ok built) :
    ∃ context, RenderedFrom project compiled model context built := by
  obtain ⟨relation, named, run⟩ := bind_eq_ok_iff.mp run
  obtain ⟨context, bound, run⟩ := bind_eq_ok_iff.mp run
  obtain ⟨rendered, renders, run⟩ := bind_eq_ok_iff.mp run
  dsimp only at run
  obtain rfl := Except.ok.inj run
  refine ⟨context, named, bound, ?_⟩
  rw [mapError_eq_ok_iff.mp renders]
  rfl

/-- A model that compiles and passes a check, found by evaluation. -/
theorem exists_compiled_of_any {id : String} {check : CompiledModel → Bool}
    (passes : ((project.compile.get? id).any fun result => result.toOption.any check) = true) :
    ∃ built, project.compile.get? id = some (.ok built) ∧ check built = true := by
  obtain ⟨result, entry, passes⟩ := (Option.any_eq_true _ _).mp passes
  cases result with
  | error error => cases passes
  | ok built => exact ⟨built, entry, passes⟩

end Project

namespace Compilation

/-- Compiled models carry the ids under which they are found, and their statements are those that
their materializations prescribe. -/
structure Keyed (compiled : Compilation) : Prop where
  id : ∀ id model, compiled.get? id = some (.ok model) → model.id = id
  statement : ∀ id model, compiled.get? id = some (.ok model) →
    model.statement = model.materialization.statement? model.relation model.sql

variable {compiled : Compilation} {id : String} {model : CompiledModel}

/-- A model with a statement is not ephemeral. -/
theorem Keyed.not_ephemeral (keyed : compiled.Keyed) (found : compiled.get? id = some (.ok model))
    (present : model.statement.isSome = true) : model.materialization ≠ .ephemeral := by
  intro ephemeral
  rw [keyed.statement id model found, ephemeral] at present
  cases present

end Compilation

/-- The compilations that there are: the empty one, and that of a loaded project, whose settings may
have been changed since. -/
inductive Compilation.Made : Compilation → Prop
  | empty : Made .empty
  | ofProject {settings : Settings} {files : List (FilePath × String)} {project : Project}
      (loaded : Project.ofSources settings files = .ok project) (later : Settings) :
      Made ({ project with settings := later } : Project).compile

theorem Compilation.Made.keyed {compiled : Compilation} (made : compiled.Made) :
    compiled.Keyed := by
  cases made with
  | empty =>
    constructor <;> intro id built found <;> rw [NameMap.get?_empty] at found <;> cases found
  | ofProject loaded later =>
    constructor
    · intro id built found
      obtain ⟨model, earlier, held, run⟩ := Project.get?_compile found
      rw [(Project.compiledFrom_of_compileModel run.symm).id, Project.get?_ofSources loaded held]
    · intro id built found
      obtain ⟨model, earlier, held, run⟩ := Project.get?_compile found
      exact (Project.compiledFrom_of_compileModel run.symm).statement

/-- The files of a model and of another one that reads it. -/
def Project.pairFiles : List (FilePath × String) :=
  [("models/a.sql", "select 1"), ("models/b.sql", "select * from \x7b\x7b ref('a') \x7d\x7d")]

theorem Project.exists_pair : ∃ project, ofSources (.default "") pairFiles = .ok project :=
  exists_of_isOk (by decide +kernel)

end SqlPipeline
