import SqlPipeline.Proofs.Build.Locality
import SqlPipeline.Proofs.Template.Eval

/-!
# Models that are pages

The search for calls and the rendering of a template read the text of a model independently.  For a
page they agree on every block that the search sees: what such a block reads is there when the model
is rendered, and its settings are those of the model.  The search takes a block with a sign inside
its braces, with a blank before its arguments, or with a comma after the arguments of a reference
for something else, so the model fails where it is rendered, unless another block reads the same.
-/

namespace SqlPipeline
namespace Project

variable {settings : Settings} {files : List (FilePath × String)} {project : Project}
  {compiled : Compilation} {ids : List String} {id name : String} {model parent : Model}
  {context result : Template.RenderContext} {page : Page}

/-! ## What a model is rendered with -/

/-- Names that are not read keep their texts. -/
theorem get?_refs_of_not_read
    (absent : ∀ other ∈ ids, ∀ text, project.reference? compiled other ≠ some (name, text))
    (run : project.addReferences compiled ids context = .ok result) :
    result.refs.get? name = context.refs.get? name := by
  induction ids generalizing context with
  | nil =>
    rw [addReferences, Except.ok.injEq] at run
    rw [run]
  | cons other ids ih =>
    obtain ⟨here, later⟩ := List.forall_mem_cons.mp absent
    rw [addReferences_cons] at run
    cases held : project.reference? compiled other with
    | none =>
      rw [held] at run
      exact ih later run
    | some added =>
      obtain ⟨otherName, otherText⟩ := added
      rw [held] at run
      obtain ⟨text, rfl, run⟩ := bind_eq_ok_iff.mp run
      have different : name ≠ otherName := by
        rintro rfl
        exact here _ held
      rw [ih later run, get?_refs_addText, if_neg different]

/-- If the texts can be added, there is one for every model that is read. -/
theorem exists_text_of_addReferences {text : Except CompileError (Option String)}
    (read : id ∈ ids) (adds : project.reference? compiled id = some (name, text))
    (run : project.addReferences compiled ids context = .ok result) :
    ∃ found, text = .ok found := by
  induction ids generalizing context with
  | nil => cases read
  | cons other ids ih =>
    rw [addReferences_cons] at run
    rcases List.mem_cons.mp read with rfl | later
    · rw [adds] at run
      obtain ⟨found, same, -⟩ := bind_eq_ok_iff.mp run
      exact ⟨found, same⟩
    · cases held : project.reference? compiled other with
      | none =>
        rw [held] at run
        exact ih later run
      | some added =>
        obtain ⟨otherName, otherText⟩ := added
        rw [held] at run
        obtain ⟨_, -, run⟩ := bind_eq_ok_iff.mp run
        exact ih later run

/-- If the texts can be added, there is one for every source table that is read. -/
theorem exists_text_of_addSources {sources : List (String × String)} {key : String}
    (read : (∃ pair ∈ sources, Template.sourceKey pair.1 pair.2 = key) ∨
      ∃ text, context.sources.get? key = some text)
    (run : project.addSources sources context = .ok result) :
    ∃ text, result.sources.get? key = some text := by
  induction sources generalizing context with
  | nil =>
    rw [addSources, Except.ok.injEq] at run
    rcases read with ⟨pair, listed, -⟩ | there
    · cases listed
    · exact run ▸ there
  | cons source sources ih =>
    obtain ⟨group, table⟩ := source
    obtain ⟨text, -, run⟩ := bind_eq_ok_iff.mp run
    refine ih ?_ run
    by_cases same : key = Template.sourceKey group table
    · exact .inr ⟨text, by rw [Template.RenderContext.addSource, same, NameMap.get?_insert_self]⟩
    · rw [List.exists_mem_cons_iff, or_assoc] at read
      refine (read.resolve_left (fun equal => same equal.symm)).imp_right ?_
      rintro ⟨old, held⟩
      exact ⟨old, by
        rw [Template.RenderContext.addSource, NameMap.get?_insert_of_ne _ _ same, held]⟩

/-! ## What a call finds -/

/-- The call reads an ephemeral model that does not compile. -/
def ReadsFailed (project : Project) : PlainCall → Prop
  | .ref _ name => ∃ parent error,
      project.get? (modelId project.settings name.literal.value) = some parent ∧
        Materialization.ofText parent.materialized = .ephemeral ∧
        project.compile.get? parent.id = some (.error error)
  | _ => False

/-- A model that is read has a text, unless it is ephemeral and failed. -/
theorem exists_ref_text (loaded : ofSources settings files = .ok project)
    (reads : parent.id ∈ model.dependsOn) (found : project.get? parent.id = some parent)
    (inlined : Materialization.ofText parent.materialized = .ephemeral →
      ∃ built, project.compile.get? parent.id = some (.ok built))
    {relation : String} (run : project.contextOf project.compile model relation = .ok context) :
    ∃ text, context.refs.get? parent.name = some text := by
  have settled := settled_compile loaded
  by_cases ephemeral : Materialization.ofText parent.materialized = .ephemeral
  · obtain ⟨built, entry⟩ := inlined ephemeral
    rw [settled parent.id, found, Option.map_some, Option.some.injEq] at entry
    rw [get?_refs_contextOf loaded settled reads found ephemeral run, entry]
    exact ⟨_, rfl⟩
  · have stands := reference?_of_lasting loaded settled found ephemeral
    obtain ⟨middle, references, -⟩ := bind_eq_ok_iff.mp run
    obtain ⟨text, same⟩ := exists_text_of_addReferences reads stands references
    rw [same] at stands
    rw [get?_refs_of_reads loaded reads found stands run]
    cases written : renderRelation (project.relationOf parent) with
    | error error =>
      rw [written] at same
      cases same
    | ok relation =>
      rw [written] at same
      exact ⟨relation, (Except.ok.inj same).symm⟩

/-- A source table that is read has a text. -/
theorem exists_source_text {source table relation : String}
    (reads : (source, table) ∈ model.sources)
    (run : project.contextOf compiled model relation = .ok context) :
    ∃ text, context.sources.get? (Template.sourceKey source table) = some text := by
  obtain ⟨middle, -, run⟩ := bind_eq_ok_iff.mp run
  obtain ⟨last, sources, run⟩ := bind_eq_ok_iff.mp run
  obtain rfl := Except.ok.inj run
  have there : ∃ text, last.sources.get? (Template.sourceKey source table) = some text :=
    exists_text_of_addSources (.inl ⟨(source, table), reads, rfl⟩) sources
  exact there

/-- A model that is not read has no text. -/
theorem get?_refs_eq_none (loaded : ofSources settings files = .ok project)
    (unread : modelId project.settings name ∉ model.dependsOn) {relation : String}
    (run : project.contextOf compiled model relation = .ok context) :
    context.refs.get? name = none := by
  obtain ⟨middle, references, run⟩ := bind_eq_ok_iff.mp run
  obtain ⟨last, sources, run⟩ := bind_eq_ok_iff.mp run
  obtain rfl := Except.ok.inj run
  rw [refs_addSources sources]
  refine (get?_refs_of_not_read (fun other reads text held => unread ?_) references).trans ?_
  · obtain ⟨parent, there, same⟩ := Option.map_eq_some_iff.mp held
    have key := (id_of_get? loaded there).2
    rw [(Prod.mk.inj same).1] at key
    rwa [settings_ofSources loaded, ← key]
  · rw [baseContext, NameMap.get?_empty]

/-! ## Pages -/

/-- What a model of a project is if its text is a page. -/
structure IsPage (project : Project) (id : String) (model : Model) (page : Page) : Prop where
  /-- The template is read as the calls of all blocks, with plain text and assignments around them,
  whether the search sees them or not. -/
  template : ∃ body, Template.parse model.rawSql = .ok body ∧
    IsReadAs (page.blocks.map (·.call)) body
  /-- The search for calls finds those of the blocks that it sees. -/
  calls : ModelCalls.ofText model.rawSql = page.found
  materialized : model.materialized =
    (page.found.settings.get? "materialized").getD project.settings.materialized
  relationName : model.relationName = page.found.settings.get? "alias"
  schema : model.schema = page.found.settings.get? "schema"
  /-- If the model is not rendered, a call is reported as undefined that the search does not see or
  that reads an ephemeral model that failed. -/
  failure : ∀ error, project.compile.get? id = some (.error (.render error)) →
    error.fault.isUndefined = true ∧ ∃ block ∈ page.blocks,
      block.call.Reports error.fault.cause ∧
        (¬ block.Seen ∨ project.ReadsFailed block.call)
  /-- A model that is read in blocks only that the search does not see is not there when the model
  is rendered. -/
  missed : ∀ block ∈ page.blocks, ∀ package name, block.call = .ref package name →
    (∀ other ∈ page.blocks, other.Seen → ∀ package same, other.call = .ref package same →
      same.literal.value ≠ name.literal.value) →
    ∃ error, project.compile.get? id = some (.error error)

theorem mem_dependsOn_of_page (loaded : ofSources settings files = .ok project)
    (found : project.get? id = some model) (spelled : model.rawSql = page.text) :
    modelId project.settings name ∈ model.dependsOn ↔
      ∃ block ∈ page.blocks, block.Seen ∧
        ∃ package read, block.call = .ref package read ∧ read.literal.value = name := by
  obtain ⟨source, rfl⟩ := exists_toModel loaded found
  have text : source.sql = page.text := spelled
  have meaning : ∀ call : PlainCall, (∃ package, .model package name ∈ call.meaning.references) ↔
      ∃ package read, call = .ref package read ∧ read.literal.value = name := by
    intro call
    cases call with
    | ref package read => simp [PlainCall.meaning, eq_comm]
    | source group table => simp [PlainCall.meaning]
    | config settings => simp [PlainCall.meaning]
  rw [settings_ofSources loaded, Source.toModel,
    List.mem_map_of_injective (modelId_injective settings), ModelCalls.mem_modelNames, text,
    ofText_page]
  constructor
  · rintro ⟨package, reads⟩
    obtain ⟨block, listed, seen, inside⟩ := mem_references_found.mp reads
    exact ⟨block, listed, seen, (meaning _).mp ⟨package, inside⟩⟩
  · rintro ⟨block, listed, seen, named⟩
    obtain ⟨package, inside⟩ := (meaning _).mpr named
    exact ⟨package, mem_references_found.mpr ⟨block, listed, seen, inside⟩⟩

theorem mem_sources_of_page (loaded : ofSources settings files = .ok project)
    (found : project.get? id = some model) (spelled : model.rawSql = page.text)
    {block : PlainBlock} (listed : block ∈ page.blocks) (seen : block.Seen)
    {group table : Positional} (call : block.call = .source group table) :
    (group.literal.value, table.literal.value) ∈ model.sources := by
  obtain ⟨source, rfl⟩ := exists_toModel loaded found
  have text : source.sql = page.text := spelled
  refine ModelCalls.mem_sourceTables.mpr ?_
  rw [text, ofText_page, mem_references_found]
  refine ⟨block, listed, seen, ?_⟩
  rw [call]
  exact List.mem_singleton_self _

/-- What a block reads that the search sees is there when the model is rendered, unless it is an
ephemeral model that failed. -/
theorem exists_result_of_seen (loaded : ofSources settings files = .ok project)
    (found : project.get? id = some model) (spelled : model.rawSql = page.text)
    {relation : String} (run : project.contextOf project.compile model relation = .ok context)
    {block : PlainBlock} (listed : block ∈ page.blocks) (seen : block.Seen)
    (lasting : ¬ project.ReadsFailed block.call) :
    ∃ text, block.call.result context = .ok text := by
  cases call : block.call with
  | ref package name =>
    have reads : modelId project.settings name.literal.value ∈ model.dependsOn :=
      (mem_dependsOn_of_page loaded found spelled).mpr
        ⟨block, listed, seen, package, name, call, rfl⟩
    obtain ⟨parent, held⟩ := exists_read loaded found reads
    obtain ⟨key, named⟩ := id_of_get? loaded held
    rw [settings_ofSources loaded] at named
    have same : name.literal.value = parent.name := modelId_injective settings named
    have inlined : Materialization.ofText parent.materialized = .ephemeral →
        ∃ built, project.compile.get? parent.id = some (.ok built) := by
      intro ephemeral
      have entry := settled_compile loaded parent.id
      rw [← key, held, Option.map_some] at entry
      cases outcome : project.compileModel project.compile parent with
      | ok built => exact ⟨built, by rw [← key, entry, outcome]⟩
      | error error =>
        refine absurd ?_ lasting
        rw [call]
        exact ⟨parent, error, held, ephemeral, by rw [← key, entry, outcome]⟩
    obtain ⟨text, bound⟩ := exists_ref_text loaded (key ▸ reads) (key ▸ held) inlined run
    exact ⟨text, by rw [PlainCall.result, same, bound]⟩
  | source group table =>
    have reads := mem_sources_of_page loaded found spelled listed seen call
    obtain ⟨text, bound⟩ := exists_source_text reads run
    exact ⟨text, by rw [PlainCall.result, bound]⟩
  | config settings => exact ⟨"", rfl⟩

theorem renderRelation_ne_render (relation : Relation) (error : Template.RenderError) :
    renderRelation relation ≠ .error (.render error) := by
  rw [renderRelation]
  cases relation.render with
  | error cause => rintro ⟨⟩
  | ok text => rintro ⟨⟩

theorem referenceText_ne_render (project : Project) (compiled : Compilation) (parent : Model)
    (error : Template.RenderError) :
    project.referenceText compiled parent ≠ .error (.render error) := by
  have relation : (renderRelation (project.relationOf parent)).map some ≠
      .error (.render error) := by
    intro failed
    cases text : renderRelation (project.relationOf parent) with
    | error cause =>
      rw [text] at failed
      cases failed
      exact renderRelation_ne_render _ error text
    | ok text' =>
      rw [text] at failed
      cases failed
  intro failed
  rw [referenceText] at failed
  split at failed
  · split at failed
    · cases failed
    · exact relation failed
  · split at failed
    · cases failed
    · exact relation failed
  · exact relation failed

theorem addReferences_ne_render (error : Template.RenderError) :
    project.addReferences compiled ids context ≠ .error (.render error) := by
  induction ids generalizing context with
  | nil => rintro ⟨⟩
  | cons id ids ih =>
    intro failed
    rw [addReferences_cons, reference?] at failed
    cases held : project.get? id with
    | none =>
      rw [held] at failed
      exact ih failed
    | some parent =>
      rw [held] at failed
      rcases bind_eq_error_iff.mp failed with stands | ⟨text, -, failed⟩
      · exact referenceText_ne_render project compiled parent error stands
      · exact ih failed

theorem addSources_ne_render {sources : List (String × String)} (error : Template.RenderError) :
    project.addSources sources context ≠ .error (.render error) := by
  induction sources generalizing context with
  | nil => rintro ⟨⟩
  | cons source sources ih =>
    intro failed
    rcases bind_eq_error_iff.mp failed with written | ⟨text, -, failed⟩
    · exact renderRelation_ne_render _ error written
    · exact ih failed

/-- Before a model is rendered, only relations can fail. -/
theorem contextOf_ne_render {relation : String} (error : Template.RenderError) :
    project.contextOf compiled model relation ≠ .error (.render error) := by
  intro failed
  obtain references | ⟨middle, -, failed⟩ := bind_eq_error_iff.mp failed
  · exact addReferences_ne_render error references
  obtain sources | ⟨last, -, failed⟩ := bind_eq_error_iff.mp failed
  · exact addSources_ne_render error sources
  · cases failed

/-- What a call reports is an undefined value. -/
theorem isUndefined_of_result {call : PlainCall} {cause : Template.Cause} {line : Nat}
    (reported : call.result context = .error cause) :
    Template.Fault.isUndefined ⟨cause, line⟩ = true := by
  cases call with
  | ref package name =>
    rw [PlainCall.result] at reported
    split at reported
    · cases reported
    · cases reported
      rfl
  | source group table =>
    rw [PlainCall.result] at reported
    split at reported
    · cases reported
    · cases reported
      rfl
  | config settings => cases reported

/-- A page that is not rendered has a call that the search did not find, or that reads an ephemeral
model that failed. -/
theorem reports_of_render_error (readable : page.Readable)
    (loaded : ofSources settings files = .ok project) (found : project.get? id = some model)
    (spelled : model.rawSql = page.text) {error : Template.RenderError}
    (failed : project.compileModel project.compile model = .error (.render error)) :
    error.fault.isUndefined = true ∧ ∃ block ∈ page.blocks,
      block.call.Reports error.fault.cause ∧
        (¬ block.Seen ∨ project.ReadsFailed block.call) := by
  obtain failed | ⟨relation, -, failed⟩ := bind_eq_error_iff.mp failed
  · exact absurd failed (renderRelation_ne_render _ error)
  obtain failed | ⟨context, run, failed⟩ := bind_eq_error_iff.mp failed
  · exact absurd failed (contextOf_ne_render error)
  obtain failed | ⟨rendered, -, failed⟩ := bind_eq_error_iff.mp failed
  · rcases Template.renderModel_page readable context (some model.path.shown) with
      ⟨rendered, renders, -⟩ | ⟨block, listed, cause, line, reported, fails⟩
    · rw [spelled, renders] at failed
      cases failed
    · rw [spelled, fails] at failed
      cases failed
      refine ⟨isUndefined_of_result reported, block, listed, ⟨context, reported⟩, ?_⟩
      by_contra apart
      rw [not_or, not_not] at apart
      obtain ⟨text, bound⟩ :=
        exists_result_of_seen loaded found spelled run listed apart.1 apart.2
      rw [bound] at reported
      cases reported
  · cases failed

/-- If a page compiles, there is a text for every call, which is a part of the select. -/
theorem exists_part_of_compileModel (readable : page.Readable) (spelled : model.rawSql = page.text)
    {block : PlainBlock} (listed : block ∈ page.blocks) {built : CompiledModel}
    (outcome : project.compileModel compiled model = .ok built) :
    ∃ relation context text, project.contextOf compiled model relation = .ok context ∧
      block.call.result context = .ok text ∧ text.toList <:+: built.sql.toList := by
  obtain ⟨relation, -, outcome⟩ := bind_eq_ok_iff.mp outcome
  obtain ⟨context, run, outcome⟩ := bind_eq_ok_iff.mp outcome
  obtain ⟨rendered, renders, outcome⟩ := bind_eq_ok_iff.mp outcome
  obtain rfl := Except.ok.inj outcome
  rw [spelled, mapError_eq_ok_iff] at renders
  rcases Template.renderModel_page readable context (some model.path.shown) with
    ⟨other, again, parts⟩ | ⟨_, _, _, _, _, fails⟩
  · obtain rfl := Except.ok.inj (again.symm.trans renders)
    obtain ⟨text, result, inside⟩ := parts block listed
    exact ⟨relation, context, text, run, result, inside⟩
  · cases fails.symm.trans renders

/-- A page with a call that reads a model which the search did not find is not compiled. -/
theorem compileModel_ne_ok_of_unread (readable : page.Readable)
    (loaded : ofSources settings files = .ok project) (spelled : model.rawSql = page.text)
    {block : PlainBlock} (listed : block ∈ page.blocks) {package : Option Positional}
    {read : Positional} (call : block.call = .ref package read)
    (unread : modelId project.settings read.literal.value ∉ model.dependsOn)
    (built : CompiledModel) : project.compileModel project.compile model ≠ .ok built := by
  intro outcome
  obtain ⟨relation, context, text, run, result, -⟩ :=
    exists_part_of_compileModel readable spelled listed outcome
  rw [call, PlainCall.result, get?_refs_eq_none loaded unread run] at result
  cases result

/-- The search for calls and the rendering agree on a model that is a page, apart from blocks that
the search does not see, which only the rendering reads. -/
theorem isPage_of_readable (readable : page.Readable)
    (loaded : ofSources settings files = .ok project) (found : project.get? id = some model)
    (spelled : model.rawSql = page.text) : project.IsPage id model page := by
  have entry : project.compile.get? id = some (project.compileModel project.compile model) := by
    rw [settled_compile loaded id, found, Option.map_some]
  have calls : ModelCalls.ofText model.rawSql = page.found := by rw [spelled, ofText_page]
  obtain ⟨source, made⟩ := exists_toModel loaded found
  have text : model.rawSql = source.sql := by rw [made, Source.toModel]
  rw [text] at calls
  refine ⟨spelled ▸ Template.exists_parse readable, text ▸ calls, ?_, ?_, ?_, ?_, ?_⟩
  · rw [made, Source.toModel, settings_ofSources loaded, calls]
  · rw [made, Source.toModel, calls]
  · rw [made, Source.toModel, calls]
  · intro error failed
    rw [entry, Option.some.injEq] at failed
    exact reports_of_render_error readable loaded found spelled failed
  · intro block listed package name call hidden
    have unread : modelId project.settings name.literal.value ∉ model.dependsOn := by
      rw [mem_dependsOn_of_page loaded found spelled]
      rintro ⟨other, member, seen, package, read, reads, equal⟩
      exact hidden other member seen package read reads equal
    rw [entry]
    cases outcome : project.compileModel project.compile model with
    | error error => exact ⟨error, rfl⟩
    | ok built =>
      exact absurd outcome
        (compileModel_ne_ok_of_unread readable loaded spelled listed call unread built)

/-- A page whose blocks are all seen: a table that reads one model. -/
def tableOfModel : Page :=
  let setting : Keyword := ⟨.empty, "materialized".toList, .empty, by decide,
    List.all_iff_forall_prop.mp (by decide)⟩
  let table : Item := ⟨.empty, ⟨'"', "table".toList, .inr rfl,
    List.all_iff_forall_prop.mp (by decide)⟩, .empty⟩
  let day : Keyword := ⟨.space, "day".toList, .space, by decide,
    List.all_iff_forall_prop.mp (by decide)⟩
  let monday : Item := ⟨.space, ⟨'"', "monday".toList, .inr rfl,
    List.all_iff_forall_prop.mp (by decide)⟩, .space⟩
  let model : Positional := ⟨⟨.empty, ⟨'\'', ['a'], .inl rfl,
    List.forall_mem_singleton.mpr (by decide)⟩, .empty⟩, by decide⟩
  ⟨[(⟨[], List.not_mem_nil⟩,
      .block ⟨.none, .space, .config [(setting, table)], .empty, some .empty, .space, .none⟩),
    (⟨[], List.not_mem_nil⟩,
      .comment ⟨" from a ".toList, List.all_iff_forall_prop.mp (by decide)⟩),
    (⟨[], List.not_mem_nil⟩,
      .assignment ⟨.minus, .space, day, monday, .none, by decide, by decide⟩),
    (⟨"select * from ".toList, by decide⟩,
      .block ⟨.none, .space, .ref .none model, .empty, .none, .space, .none⟩)],
    ⟨['\n'], by decide⟩⟩

example : tableOfModel.text =
    "\x7b\x7b config(materialized=\"table\",) \x7d\x7d\x7b# from a #\x7d" ++
    "\x7b%- set day = \"monday\" %\x7dselect * from \x7b\x7b ref('a') \x7d\x7d\n" := by
  decide +kernel

theorem readable_tableOfModel : tableOfModel.Readable := by
  have empty := Gap.readable_empty
  have space := Gap.readable_space
  have name : ∀ name ∈ ["materialized".toList, "day".toList],
      name.head?.all Template.startsName = true ∧
        (∀ c ∈ name, Template.continuesName c = true) ∧
        String.ofList name ∉ operatorNames :=
    List.forall_mem_cons.mpr
      ⟨⟨by decide, List.all_iff_forall_prop.mp (by decide), by decide⟩,
        List.forall_mem_singleton.mpr
          ⟨by decide, List.all_iff_forall_prop.mp (by decide), by decide⟩⟩
  intro part listed
  simp only [tableOfModel, List.mem_cons, List.not_mem_nil, or_false] at listed
  rcases listed with rfl | rfl | rfl | rfl
  · refine ⟨space, empty, fun argument member => ?_, ?_, space⟩
    · obtain rfl := List.mem_singleton.mp member
      refine ⟨?_, empty, by decide, empty⟩
      rintro keyword ⟨⟩
      obtain ⟨starts, continues, free⟩ := name _ List.mem_cons_self
      exact ⟨empty, starts, continues, free, empty⟩
    · rintro gap ⟨⟩
      exact ⟨empty, List.cons_ne_nil _ _⟩
  · exact trivial
  · obtain ⟨starts, continues, free⟩ := name _ (List.mem_cons_of_mem _ List.mem_cons_self)
    exact ⟨space, ⟨space, starts, continues, free, space⟩, ⟨space, by decide, space⟩, by decide⟩
  · refine ⟨space, empty, fun argument member => ?_, nofun, space⟩
    obtain rfl := List.mem_singleton.mp member
    refine ⟨?_, empty, by decide, empty⟩
    rintro keyword ⟨⟩

/-- A page whose blocks are all seen is built as it says. -/
theorem isPage_of_readable_table :
    ∃ project model, ofSources (.default "")
        [("models/a.sql", "select 1"), ("models/b.sql", tableOfModel.text)] = .ok project ∧
      project.get? "model.modelflow_project.b" = some model ∧
      project.IsPage "model.modelflow_project.b" model tableOfModel ∧
      model.materialized = "table" := by
  obtain ⟨project, loaded, passes⟩ := exists_loaded (.default "")
    [("models/a.sql", "select 1"), ("models/b.sql", tableOfModel.text)]
    (fun project : Project => (project.get? "model.modelflow_project.b").any fun model : Model =>
      decide (model.rawSql = tableOfModel.text ∧ model.materialized = "table"))
    (by decide +kernel)
  obtain ⟨model, found, passes⟩ := (Option.any_eq_true _ _).mp passes
  obtain ⟨spelled, materialized⟩ := of_decide_eq_true passes
  exact ⟨project, model, loaded, found,
    isPage_of_readable readable_tableOfModel loaded found spelled, materialized⟩

/-- A sign beside the braces hides a call from the search, though not from the rendering: the model
that it reads is there, and yet it is reported as missing. -/
theorem marked_call_missed :
    let text := "\x7b\x7b- ref('a') -\x7d\x7d"
    let id := "model.modelflow_project.b"
    let missing : CompileError := .render
      ⟨⟨.undefinedValue (some "ref('a') does not match any model"), 1⟩, some "models/b.sql"⟩
    ModelCalls.ofText text = ⟨[], .empty⟩ ∧
      ∃ project, ofSources (.default "") [("models/a.sql", "select 1"), ("models/b.sql", text)] =
          .ok project ∧
        project.get? "model.modelflow_project.a" ≠ none ∧
        project.compile.get? id = some (.error missing) := by
  intro text id missing
  refine ⟨by decide +kernel, ?_⟩
  obtain ⟨project, loaded, passes⟩ := exists_loaded (.default "")
    [("models/a.sql", "select 1"), ("models/b.sql", text)]
    (fun project : Project => (project.get? "model.modelflow_project.a").isSome &&
      (project.compile.get? id).any fun result => Except.casesOn (motive := fun _ => Bool) result
        (fun error => decide (error = missing)) fun _ => false) (by decide +kernel)
  obtain ⟨there, fails⟩ := Bool.and_eq_true_iff.mp passes
  obtain ⟨result, entry, fails⟩ := (Option.any_eq_true _ _).mp fails
  refine ⟨project, loaded, Option.isSome_iff_ne_none.mp there, ?_⟩
  cases result with
  | ok built => cases fails
  | error error => rw [entry, of_decide_eq_true fails]

end Project
end SqlPipeline
