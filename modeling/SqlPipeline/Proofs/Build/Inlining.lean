import SqlPipeline.Proofs.Build.Page
import SqlPipeline.Proofs.Build.Select
import SqlPipeline.Proofs.Model.PageCalls

/-!
# The select of an inlined model

Where a model reads an ephemeral one, `ref` renders to the select of the latter between parentheses
under its name.  The select is trimmed, but the semicolons at its end are not taken away as they are
where a statement is built.  So it is at every depth: the select of a model that is inlined in an
inlined one is found in parentheses in the outermost one.
-/

namespace SqlPipeline
namespace Project

open Text

variable {settings : Settings} {files : List (FilePath × String)} {project : Project}
  {model parent outer inner : Model} {built : CompiledModel} {context : Template.RenderContext}
  {name sql body relation : String}

/-! ## One model in another -/

/-- What `ref` renders to for a model that compiled to a select: a text in parentheses under the
name of the model.  It is the trimmed select; of what statements embed it differs by the semicolons
at the end and the blanks before them, so it is the same just if no semicolon is there. -/
structure InlinedAs (context : Template.RenderContext) (name sql body : String) : Prop where
  rendered : ∀ package : Option String,
    Template.Builtin.ref.apply context.names.get?
        (package.toList.map .string ++ [.string name]) =
      .ok (.string ("(\n" ++ body ++ "\n) as " ++ name))
  trimmed : IsTrimmed body.toList
  marked : ∃ gap marks, body.toList = (cleanSelect sql).toList ++ gap ++ marks ∧
    (∀ c ∈ gap, isBlank c = true) ∧ ∀ c ∈ marks, c = ';'
  clean : body = cleanSelect sql ↔ body.toList.getLast? ≠ some ';'

theorem inlinedAs_trim (bound : context.refs.get? name = some (subquery sql name)) :
    InlinedAs context name sql (trim sql) := by
  refine ⟨fun package => ?_, isTrimmed_trim sql, ?_, trim_eq_cleanSelect_iff⟩
  · rw [Template.apply_ref (Template.get?_names_refs context), bound]
    rfl
  · obtain ⟨gap, marks, whole, blank, semicolons, -⟩ := exists_trimChars_eq sql
    exact ⟨gap, marks, by rw [toList_trim, whole], blank, semicolons⟩

/-- What stands for an ephemeral model that compiled, in any model that reads it. -/
theorem get?_refs_of_inlined (loaded : ofSources settings files = .ok project)
    (found : project.get? parent.id = some parent) (reads : parent.id ∈ model.dependsOn)
    (ephemeral : Materialization.ofText parent.materialized = .ephemeral)
    (compiled : project.compile.get? parent.id = some (.ok built))
    (run : project.contextOf project.compile model relation = .ok context) :
    context.refs.get? parent.name = some (subquery built.sql parent.name) := by
  have outcome := Option.some.inj ((get?_compile_of_found loaded found).symm.trans compiled)
  rw [get?_refs_contextOf loaded (settled_compile loaded) reads found ephemeral run, outcome]
  rfl

/-! ## Models in models -/

/-- The text of a model is a page with a call that reads an ephemeral model. -/
structure Encloses (project : Project) (outer inner : Model) : Prop where
  found : project.get? outer.id = some outer
  read : project.get? inner.id = some inner
  ephemeral : Materialization.ofText inner.materialized = .ephemeral
  called : ∃ page : Page, page.Readable ∧ outer.rawSql = page.text ∧ ∃ block ∈ page.blocks,
    ∃ package read, block.call = .ref package read ∧ read.literal.value = inner.name

/-- A trimmed select in parentheses. -/
def enclosed (sql : String) : String := "(\n" ++ trim sql ++ "\n)"

theorem subquery_eq (sql name : String) : subquery sql name = enclosed sql ++ (" as " ++ name) := by
  have ending : "\n) as " = "\n)" ++ " as " := rfl
  rw [subquery, enclosed, ending]
  simp only [String.append_assoc]

theorem isTrimmed_enclosed (sql : String) : IsTrimmed (enclosed sql).toList := by
  have spelled : (enclosed sql).toList =
      '(' :: ('\n' :: ((trim sql).toList ++ ['\n'])) ++ [')'] := by simp [enclosed]
  refine ⟨fun c first => ?_, fun c last => ?_⟩
  · rw [spelled] at first
    cases first
    decide
  · rw [spelled, List.getLast?_concat] at last
    cases last
    decide

/-- If a page that reads an ephemeral model compiles, so does that model, and its select is found
in parentheses in that of the page. -/
theorem Encloses.exists_enclosed (loaded : ofSources settings files = .ok project)
    (encloses : project.Encloses outer inner)
    (compiled : project.compile.get? outer.id = some (.ok built)) :
    ∃ select, project.compile.get? inner.id = some (.ok select) ∧
      (enclosed select.sql).toList <:+: built.sql.toList := by
  obtain ⟨page, readable, spelled, block, listed, package, read, call, named⟩ := encloses.called
  have outcome :=
    Option.some.inj ((get?_compile_of_found loaded encloses.found).symm.trans compiled)
  have reads : inner.id ∈ outer.dependsOn := by
    by_contra unread
    have key := (id_of_get? loaded encloses.read).2
    rw [← settings_ofSources loaded, ← named] at key
    exact compileModel_ne_ok_of_unread readable loaded spelled listed call (key ▸ unread) built
      outcome
  obtain ⟨relation, context, text, run, result, inside⟩ :=
    exists_part_of_compileModel readable spelled listed outcome
  have bound := get?_refs_contextOf loaded (settled_compile loaded) reads encloses.read
    encloses.ephemeral run
  rw [call, PlainCall.result, named, bound] at result
  have innermost := get?_compile_of_found loaded encloses.read
  cases compiles : project.compileModel project.compile inner with
  | error error =>
    rw [compiles] at result
    cases result
  | ok select =>
    rw [compiles] at result innermost
    obtain rfl := Except.ok.inj result
    refine ⟨select, innermost, List.IsInfix.trans ?_ inside⟩
    dsimp only
    rw [subquery_eq, String.toList_append]
    exact (List.prefix_append _ _).isInfix

/-- A trimmed select keeps what is in parentheses in it. -/
theorem enclosed_infix_enclosed {first second : String}
    (inside : (enclosed first).toList <:+: second.toList) :
    (enclosed first).toList <:+: (enclosed second).toList := by
  have kept := (isTrimmed_enclosed first).infix_trimChars inside
  rw [← toList_trim] at kept
  refine kept.trans ⟨"(\n".toList, "\n)".toList, ?_⟩
  rw [enclosed, String.toList_append, String.toList_append]

/-- What is inlined in an inlined model is inlined with it. -/
theorem exists_enclosed_of_transGen (loaded : ofSources settings files = .ok project)
    (nested : Relation.TransGen project.Encloses outer inner)
    (compiled : project.compile.get? outer.id = some (.ok built)) :
    ∃ select, project.compile.get? inner.id = some (.ok select) ∧
      (enclosed select.sql).toList <:+: built.sql.toList := by
  induction nested with
  | single encloses => exact encloses.exists_enclosed loaded compiled
  | tail _ encloses ih =>
    obtain ⟨middle, between, around⟩ := ih
    obtain ⟨select, innermost, inside⟩ := encloses.exists_enclosed loaded between
    exact ⟨select, innermost, (enclosed_infix_enclosed inside).trans around⟩

/-! ## The result -/

/-- What stands for an ephemeral model that compiled, in any model that reads it, an ephemeral one
or not, is its trimmed select in parentheses under its name; semicolons at its end are left.  If the
models between are pages, the select is found in parentheses at every depth. -/
theorem inlined_select (loaded : ofSources settings files = .ok project) :
    (∀ parent model built relation context, project.get? parent.id = some parent →
      parent.id ∈ model.dependsOn → Materialization.ofText parent.materialized = .ephemeral →
      project.compile.get? parent.id = some (.ok built) →
      project.contextOf project.compile model relation = .ok context →
        ∃ body, InlinedAs context parent.name built.sql body) ∧
    ∀ outer inner built, Relation.TransGen project.Encloses outer inner →
      project.compile.get? outer.id = some (.ok built) →
        ∃ select, project.compile.get? inner.id = some (.ok select) ∧
          (enclosed select.sql).toList <:+: built.sql.toList := by
  refine ⟨fun parent model built relation context found reads ephemeral compiled run => ?_,
    fun outer inner built nested compiled => exists_enclosed_of_transGen loaded nested compiled⟩
  exact ⟨_, inlinedAs_trim (get?_refs_of_inlined loaded found reads ephemeral compiled run)⟩

/-- A page that reads one model. -/
def readerOf (name : Literal) (undivided : ',' ∉ name.content) : Page :=
  let call : PlainCall := .ref none ⟨⟨.space, name, .space⟩, undivided⟩
  ⟨[(⟨"select id from ".toList, by decide⟩,
      .block ⟨.none, .space, call, .empty, none, .space, .none⟩)],
    ⟨" where id > 0".toList, by decide⟩⟩

theorem readable_readerOf {name : Literal} (undivided : ',' ∉ name.content)
    (plain : '\\' ∉ name.content) : (readerOf name undivided).Readable := by
  have space := Gap.readable_space
  intro part listed
  obtain rfl := List.mem_singleton.mp listed
  refine ⟨space, Gap.readable_empty, fun argument member => ?_, nofun, space⟩
  obtain rfl := List.mem_singleton.mp member
  refine ⟨?_, space, plain, space⟩
  rintro keyword ⟨⟩

/-- The page of the second model. -/
def middlePage : Page :=
  readerOf (Page.quoted false "a" (List.all_iff_forall_prop.mp (by decide))) (by decide)

/-- The page of the third model. -/
def outerPage : Page :=
  readerOf (Page.quoted true "b" (List.all_iff_forall_prop.mp (by decide))) (by decide)

example : outerPage.text = "select id from \x7b\x7b ref( \"b\" ) \x7d\x7d where id > 0" := by
  decide +kernel

/-- The settings of a project whose models are inlined, unless they say something else. -/
def inliningSettings : Settings := { Settings.default "" with materialized := "ephemeral" }

/-- The files of three models of which each reads the one before. -/
def nestedFiles : List (FilePath × String) :=
  [("models/a.sql", "select 1 as id;"), ("models/b.sql", middlePage.text),
    ("models/c.sql", outerPage.text)]

theorem exists_nested :
    ∃ project outer middle inner context built select,
      ofSources inliningSettings nestedFiles = .ok project ∧
      (project.Encloses outer middle ∧ project.Encloses middle inner) ∧
      inner.id ∈ middle.dependsOn ∧
      project.contextOf project.compile middle "b" = .ok context ∧
      project.compile.get? outer.id = some (.ok built) ∧
      project.compile.get? inner.id = some (.ok select) ∧ select.sql = "select 1 as id;" := by
  obtain ⟨project, loaded, passes⟩ := exists_loaded inliningSettings nestedFiles
    (fun project : Project =>
      (project.get? "model.modelflow_project.c").any fun outer : Model =>
        (project.get? "model.modelflow_project.b").any fun middle : Model =>
          (project.get? "model.modelflow_project.a").any fun inner : Model =>
            decide (outer.rawSql = outerPage.text ∧
              middle.rawSql = middlePage.text ∧ middle.name = "b" ∧
              inner.name = "a" ∧ inner.id ∈ middle.dependsOn ∧
              Materialization.ofText middle.materialized = .ephemeral ∧
              Materialization.ofText inner.materialized = .ephemeral) &&
            ((project.contextOf project.compile middle "b").isOk &&
            ((project.compile.get? "model.modelflow_project.c").any fun result =>
              result.toOption.any fun _ => true) &&
            (project.compile.get? "model.modelflow_project.a").any fun result =>
              result.toOption.any fun select => decide (select.sql = "select 1 as id;")))
    (by decide +kernel)
  obtain ⟨outer, outermost, passes⟩ := (Option.any_eq_true _ _).mp passes
  obtain ⟨middle, between, passes⟩ := (Option.any_eq_true _ _).mp passes
  obtain ⟨inner, innermost, passes⟩ := (Option.any_eq_true _ _).mp passes
  obtain ⟨facts, runs⟩ := Bool.and_eq_true_iff.mp passes
  obtain ⟨outerText, middleText, middleName, innerName, reads, first, second⟩ :=
    of_decide_eq_true facts
  obtain ⟨others, selects⟩ := Bool.and_eq_true_iff.mp runs
  obtain ⟨sees, builds⟩ := Bool.and_eq_true_iff.mp others
  obtain ⟨built, compiled, -⟩ := exists_compiled_of_any builds
  obtain ⟨select, selected, spelled⟩ := exists_compiled_of_any selects
  obtain ⟨context, run⟩ := exists_of_isOk sees
  have outerId := get?_ofSources loaded outermost
  have middleId := get?_ofSources loaded between
  have innerId := get?_ofSources loaded innermost
  rw [← outerId] at outermost compiled
  rw [← middleId] at between
  rw [← innerId] at innermost selected
  have around : project.Encloses outer middle :=
    ⟨outermost, between, first, _, readable_readerOf (by decide) (by decide), outerText, _,
      List.mem_cons_self, _, _, rfl, middleName.symm⟩
  have inside : project.Encloses middle inner :=
    ⟨between, innermost, second, _, readable_readerOf (by decide) (by decide), middleText, _,
      List.mem_cons_self, _, _, rfl, innerName.symm⟩
  exact ⟨project, outer, middle, inner, context, built, select, loaded, ⟨around, inside⟩, reads,
    run, compiled, selected, of_decide_eq_true spelled⟩

/-- The select of the first model is found in those of both others. -/
theorem inlined_select_nested :
    ∃ project outer middle inner context built select,
      ofSources inliningSettings nestedFiles = .ok project ∧
      (project.Encloses outer middle ∧ project.Encloses middle inner) ∧
      project.contextOf project.compile middle "b" = .ok context ∧
      project.compile.get? outer.id = some (.ok built) ∧
      project.compile.get? inner.id = some (.ok select) ∧ select.sql = "select 1 as id;" ∧
      (∃ body, InlinedAs context inner.name select.sql body) ∧
      (enclosed select.sql).toList <:+: built.sql.toList := by
  obtain ⟨project, outer, middle, inner, context, built, select, loaded, ⟨around, inside⟩, reads,
    run, compiled, selected, spelled⟩ := exists_nested
  obtain ⟨stands, nested⟩ := inlined_select loaded
  have body :=
    stands inner middle select "b" context inside.read reads inside.ephemeral selected run
  obtain ⟨other, again, found⟩ :=
    nested outer inner built (.tail (.single around) inside) compiled
  obtain rfl := Except.ok.inj (Option.some.inj (again.symm.trans selected))
  exact ⟨project, outer, middle, inner, context, built, other, loaded, ⟨around, inside⟩, run,
    compiled, selected, spelled, body, found⟩

/-- The semicolon of an ephemeral model is left where the model is read, though it is taken away
where a table is made of it. -/
theorem semicolon_inlined :
    let ephemeral := "\x7b\x7b config(materialized='ephemeral') \x7d\x7dselect 1 as id;"
    let reader := "select id from \x7b\x7b ref('base') \x7d\x7d"
    cleanSelect "select 1 as id;" = "select 1 as id" ∧
      ∃ project base final, ofSources (.default "")
          [("models/base.sql", ephemeral), ("models/final.sql", reader)] = .ok project ∧
        project.compile.get? "model.modelflow_project.base" = some (.ok base) ∧
        base.materialization = .ephemeral ∧ base.sql = "select 1 as id;" ∧
        project.compile.get? "model.modelflow_project.final" = some (.ok final) ∧
        final.sql = "select id from (\nselect 1 as id;\n) as base" := by
  intro ephemeral reader
  refine ⟨by decide, ?_⟩
  obtain ⟨project, loaded, passes⟩ := exists_loaded (.default "")
    [("models/base.sql", ephemeral), ("models/final.sql", reader)]
    (fun project : Project =>
      ((project.compile.get? "model.modelflow_project.base").any fun result =>
        result.toOption.any fun base =>
          decide (base.materialization = .ephemeral ∧ base.sql = "select 1 as id;")) &&
      (project.compile.get? "model.modelflow_project.final").any fun result =>
        result.toOption.any fun final =>
          decide (final.sql = "select id from (\nselect 1 as id;\n) as base"))
    (by decide +kernel)
  obtain ⟨first, second⟩ := Bool.and_eq_true_iff.mp passes
  obtain ⟨base, entry, facts⟩ := exists_compiled_of_any first
  obtain ⟨final, result, text⟩ := exists_compiled_of_any second
  obtain ⟨inlined, select⟩ := of_decide_eq_true facts
  exact ⟨project, base, final, loaded, entry, inlined, select, result, of_decide_eq_true text⟩

end Project
end SqlPipeline
