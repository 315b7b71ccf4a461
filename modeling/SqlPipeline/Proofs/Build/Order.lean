import SqlPipeline.Proofs.Build.Compilation
import SqlPipeline.Proofs.Graph.Order

/-!
# Compiling in any order

What becomes of a model depends on what became of the models that it reads, and on nothing else in
the map that is being filled.  In a topological order these have been compiled before, so every
entry is what compiling its model gives with the finished map: a fixed point.  As no model depends
on itself there is only one, so all topological orders lead to the same compilation.
-/

namespace SqlPipeline
namespace Project

variable {settings : Settings} {files : List (FilePath × String)} {project changed : Project}
  {first second compiled : Compilation} {ids order : List String} {id : String}
  {model parent : Model} {built : CompiledModel} {context result : Template.RenderContext}

/-! ## What a result depends on -/

/-- What a model of the project with an id adds to the texts that templates see: its name and the
text that stands for it. -/
def reference? (project : Project) (compiled : Compilation) (id : String) :
    Option (String × Except CompileError (Option String)) :=
  (project.get? id).map fun parent => (parent.name, project.referenceText compiled parent)

theorem addReferences_cons (project : Project) (compiled : Compilation) (id : String)
    (ids : List String) (context : Template.RenderContext) :
    project.addReferences compiled (id :: ids) context =
      match project.reference? compiled id with
      | none => project.addReferences compiled ids context
      | some (name, text) => text.bind fun text =>
        project.addReferences compiled ids ((text.map (context.addRef name)).getD context) := by
  rw [addReferences, reference?]
  cases project.get? id with
  | none => rfl
  | some parent =>
    dsimp only [Option.map_some]
    cases project.referenceText compiled parent with
    | error error => rfl
    | ok text => cases text <;> rfl

theorem addReferences_congr
    (same : ∀ id ∈ ids, project.reference? first id = changed.reference? second id)
    (context : Template.RenderContext) :
    project.addReferences first ids context = changed.addReferences second ids context := by
  induction ids generalizing context with
  | nil => rw [addReferences, addReferences]
  | cons id ids ih =>
    obtain ⟨here, later⟩ := List.forall_mem_cons.mp same
    simp only [addReferences_cons, here, ih later]

theorem addSources_congr (settings : project.settings = changed.settings)
    (sources : List (String × String)) (context : Template.RenderContext) :
    project.addSources sources context = changed.addSources sources context := by
  induction sources generalizing context with
  | nil => rw [addSources, addSources]
  | cons source sources ih =>
    obtain ⟨source, table⟩ := source
    simp only [addSources, sourceRelation, settings, ih]

/-- The result for a model depends on the settings and on what stands for the models that it
reads. -/
theorem compileModel_congr (settings : project.settings = changed.settings)
    (same : ∀ id ∈ model.dependsOn, project.reference? first id = changed.reference? second id) :
    project.compileModel first model = changed.compileModel second model := by
  simp only [compileModel, contextOf, relationOf, settings, addReferences_congr same,
    addSources_congr settings]

/-- The same model with the same result stands for itself in the same way. -/
theorem reference?_congr (loaded : ofSources settings files = .ok project)
    (settings : changed.settings = project.settings)
    (held : changed.get? id = project.get? id) (same : second.get? id = first.get? id) :
    changed.reference? second id = project.reference? first id := by
  rw [reference?, reference?, held]
  cases found : project.get? id with
  | none => rfl
  | some parent =>
    obtain rfl := get?_ofSources loaded found
    rw [Option.map_some, Option.map_some, referenceText, referenceText, same, relationOf,
      relationOf, settings]

/-! ## The fixed point -/

/-- Every entry is what compiling its model gives with the whole map, and there is one for each
model. -/
def Settled (project : Project) (compiled : Compilation) : Prop :=
  ∀ id, compiled.get? id = (project.get? id).map (project.compileModel compiled)

/-- There is at most one fixed point. -/
theorem Settled.unique (loaded : ofSources settings files = .ok project)
    (settled : project.Settled first) (other : project.Settled second) : first = second := by
  refine NameMap.ext_get? fun id => ?_
  induction id using (acyclic_ofSources loaded).induction with
  | _ id ih =>
    rw [settled id, other id]
    cases found : project.get? id with
    | none => rfl
    | some model =>
      refine congrArg some (compileModel_congr rfl fun parent reads => ?_)
      exact reference?_congr loaded rfl rfl
        (ih parent (.single ((edge_iff loaded).mpr ⟨model, found, reads⟩)))

theorem compileInOrder_append (project : Project) (first second : List String)
    (compiled : Compilation) :
    project.compileInOrder (first ++ second) compiled =
      project.compileInOrder second (project.compileInOrder first compiled) := by
  induction first generalizing compiled with
  | nil => rfl
  | cons id first ih =>
    rw [List.cons_append, compileInOrder, compileInOrder]
    split
    · exact ih compiled
    · exact ih _

/-- After an arrangement of some nodes, the entries of these are settled and there are no others. -/
theorem get?_compileInOrder_of_arranged (loaded : ofSources settings files = .ok project)
    (arranged : project.graph.Arranged order) (id : String) :
    (project.compileInOrder order .empty).get? id =
      if id ∈ order then
        (project.get? id).map (project.compileModel (project.compileInOrder order .empty))
      else none := by
  induction arranged generalizing id with
  | nil => rfl
  | @place order last arranged member absent parents ih =>
    obtain ⟨model, found⟩ := (mem_nodes_iff loaded).mp member
    have step : project.compileInOrder (order ++ [last]) .empty =
        (project.compileInOrder order .empty).insert last
          (project.compileModel (project.compileInOrder order .empty) model) := by
      rw [compileInOrder_append, compileInOrder, found]
      rfl
    -- The new entry changes nothing for a model whose parents have all been placed before.
    have kept : ∀ other reader, project.get? other = some reader →
        project.graph.parents other ⊆ order →
        project.compileModel (project.compileInOrder (order ++ [last]) .empty) reader =
          project.compileModel (project.compileInOrder order .empty) reader := by
      intro other reader held before
      refine compileModel_congr rfl fun parent reads => reference?_congr loaded rfl rfl ?_
      have edge := (edge_iff loaded).mpr ⟨reader, held, reads⟩
      have different : parent ≠ last := fun same =>
        absent (same ▸ before (Graph.mem_parents.mpr edge))
      rw [step, NameMap.get?_insert_of_ne _ _ different]
    by_cases same : id = last
    · subst same
      rw [if_pos (List.mem_append_right order List.mem_cons_self), found, Option.map_some,
        kept id model found parents, step, NameMap.get?_insert_self]
    · have listed : id ∈ order ++ [last] ↔ id ∈ order := by simp [same]
      have old := ih id
      rw [step, NameMap.get?_insert_of_ne _ _ same, old, ← step]
      simp only [listed]
      split
      next before =>
        cases held : project.get? id with
        | none => rfl
        | some reader =>
          exact congrArg some (kept id reader held (arranged.parents_subset before)).symm
      next => rfl

theorem settled_compileInOrder (loaded : ofSources settings files = .ok project)
    (arranged : project.graph.Arranged order) (all : project.graph.nodes.toList ⊆ order) :
    project.Settled (project.compileInOrder order .empty) := by
  intro id
  rw [get?_compileInOrder_of_arranged loaded arranged]
  split
  · rfl
  next absent =>
    cases found : project.get? id with
    | none => rfl
    | some model => exact absurd (all ((mem_nodes_iff loaded).mpr ⟨model, found⟩)) absent

theorem settled_compile (loaded : ofSources settings files = .ok project) :
    project.Settled project.compile := by
  obtain ⟨order, placed, arranged, complete⟩ := project.graph.exists_placedOrder
  have sorted := Graph.isSome_topologicalSort?_iff.mpr (acyclic_ofSources loaded)
  rw [Graph.topologicalSort?, placed] at sorted
  have full : order.length = project.graph.size := by
    simpa [Option.filter] using sorted
  have same : project.compile = project.compileInOrder order .empty := by
    simp [compile, Graph.topologicalSort?, placed, Option.filter, full]
  rw [same]
  exact settled_compileInOrder loaded arranged fun name member =>
    arranged.mem_of_length full.ge member

/-- Every model has the result that compiling it gives with the whole compilation. -/
theorem get?_compile_of_found (loaded : ofSources settings files = .ok project)
    (found : project.get? id = some model) :
    project.compile.get? id = some (project.compileModel project.compile model) := by
  rw [settled_compile loaded id, found, Option.map_some]

/-! ## What stands for an ephemeral model -/

/-- An ephemeral model stands for its select if it compiled, and for nothing otherwise. -/
theorem referenceText_of_ephemeral (settled : project.Settled compiled)
    (found : project.get? parent.id = some parent)
    (ephemeral : Materialization.ofText parent.materialized = .ephemeral) :
    project.referenceText compiled parent =
      .ok ((project.compileModel compiled parent).toOption.map fun built =>
        subquery built.sql parent.name) := by
  have entry := settled parent.id
  rw [found, Option.map_some] at entry
  rw [referenceText, entry]
  cases run : project.compileModel compiled parent with
  | error error => simp [ephemeral, Except.toOption]
  | ok built =>
    have taken := compiledFrom_of_compileModel run
    simp [taken.materialization, ephemeral, taken.name, Except.toOption]

theorem get?_refs_addText (context : Template.RenderContext) (name key : String)
    (text : Option String) :
    ((text.map (context.addRef name)).getD context).refs.get? key =
      if key = name then text.or (context.refs.get? key) else context.refs.get? key := by
  cases text with
  | none => simp
  | some text =>
    rw [Option.map_some, Option.getD_some, Template.RenderContext.addRef, NameMap.get?_insert]
    rfl

/-- The text for a model whose name no other model has is the one that it adds. -/
theorem get?_refs_addReferences {name : String} {text : Option String}
    (adds : project.reference? compiled id = some (name, .ok text))
    (only : ∀ other otherText, project.reference? compiled other = some (name, otherText) →
      other = id)
    (start : (text.or (context.refs.get? name)) = text)
    (run : project.addReferences compiled ids context = .ok result) :
    result.refs.get? name = if id ∈ ids then text else context.refs.get? name := by
  induction ids generalizing context with
  | nil =>
    rw [addReferences, Except.ok.injEq] at run
    rw [run, if_neg List.not_mem_nil]
  | cons other ids ih =>
    rw [addReferences_cons] at run
    cases held : project.reference? compiled other with
    | none =>
      have different : id ≠ other := by
        rintro rfl
        rw [adds] at held
        cases held
      rw [held] at run
      rw [ih start run]
      simp [different]
    | some added =>
      obtain ⟨otherName, otherText⟩ := added
      rw [held] at run
      obtain ⟨added, rfl, run⟩ := bind_eq_ok_iff.mp run
      by_cases same : name = otherName
      · subst same
        obtain rfl := only other _ held
        obtain rfl : added = text := by
          rw [adds] at held
          cases held
          rfl
        have now := get?_refs_addText context name name added
        rw [if_pos rfl, start] at now
        rw [ih (by rw [now, Option.or_self]) run, now]
        simp
      · have different : id ≠ other := by
          rintro rfl
          rw [adds] at held
          cases held
          exact same rfl
        have kept := get?_refs_addText context otherName name added
        rw [if_neg same] at kept
        rw [ih (by rw [kept, start]) run, kept]
        simp [different]

theorem refs_addSources {sources : List (String × String)}
    (run : project.addSources sources context = .ok result) : result.refs = context.refs := by
  induction sources generalizing context with
  | nil =>
    rw [addSources, Except.ok.injEq] at run
    rw [run]
  | cons source sources ih =>
    obtain ⟨text, -, run⟩ := bind_eq_ok_iff.mp run
    rw [ih run]
    rfl

/-- What a model is rendered with binds the name of a model that it reads to the text that stands
for that model. -/
theorem get?_refs_of_reads (loaded : ofSources settings files = .ok project)
    (reads : parent.id ∈ model.dependsOn) (found : project.get? parent.id = some parent)
    {text : Option String}
    (adds : project.reference? compiled parent.id = some (parent.name, .ok text))
    {relation : String} (run : project.contextOf compiled model relation = .ok context) :
    context.refs.get? parent.name = text := by
  obtain ⟨middle, references, run⟩ := bind_eq_ok_iff.mp run
  obtain ⟨last, sources, run⟩ := bind_eq_ok_iff.mp run
  obtain rfl := Except.ok.inj run
  have only : ∀ other otherText,
      project.reference? compiled other = some (parent.name, otherText) → other = parent.id := by
    intro other otherText held
    obtain ⟨reader, there, same⟩ := Option.map_eq_some_iff.mp held
    rw [(id_of_get? loaded there).2, (id_of_get? loaded found).2, (Prod.mk.inj same).1]
  have bound := get?_refs_addReferences adds only
    (by rw [baseContext, NameMap.get?_empty, Option.or_none]) references
  rw [if_pos reads] at bound
  rw [refs_addSources sources, bound]

/-- What a model is rendered with binds the name of an ephemeral model that it reads to the select
of that model in parentheses, or to nothing if that model failed. -/
theorem get?_refs_contextOf (loaded : ofSources settings files = .ok project)
    (settled : project.Settled compiled) (reads : parent.id ∈ model.dependsOn)
    (found : project.get? parent.id = some parent)
    (ephemeral : Materialization.ofText parent.materialized = .ephemeral) {relation : String}
    (run : project.contextOf compiled model relation = .ok context) :
    context.refs.get? parent.name =
      (project.compileModel compiled parent).toOption.map fun built =>
        subquery built.sql parent.name := by
  refine get?_refs_of_reads loaded reads found ?_ run
  rw [reference?, found, Option.map_some, referenceText_of_ephemeral settled found ephemeral]

/-! ## The result -/

/-- A compilation has one entry for each model, which is what compiling the model gives with the
whole compilation; every topological order leads to it; what a model compiles to is its text,
rendered with its context at its own relation; and in a context ephemeral models are inlined
wherever they are read, unless they failed: their relations are never read. -/
theorem compile_settles (loaded : ofSources settings files = .ok project) :
    project.compile.keys = project.models.keys ∧
      (∀ id model, project.get? id = some model →
        project.compile.get? id = some (project.compileModel project.compile model)) ∧
      (∀ order, project.graph.Arranged order → project.graph.nodes.toList ⊆ order →
        project.compileInOrder order .empty = project.compile) ∧
      (∀ id built, project.compile.get? id = some (.ok built) →
        ∃ model context, project.get? id = some model ∧
          RenderedFrom project project.compile model context built) ∧
      ∀ id model parent, project.get? id = some model → project.get? parent.id = some parent →
        parent.id ∈ model.dependsOn → Materialization.ofText parent.materialized = .ephemeral →
        ∀ relation context, project.contextOf project.compile model relation = .ok context →
          ∃ result, project.compile.get? parent.id = some result ∧
            context.refs.get? parent.name =
              result.toOption.map fun built => subquery built.sql parent.name := by
  have settled := settled_compile loaded
  have entry : ∀ id model, project.get? id = some model →
      project.compile.get? id = some (project.compileModel project.compile model) := by
    intro id model found
    rw [settled id, found, Option.map_some]
  refine ⟨?_, entry, fun order arranged all => ?_, fun id built result => ?_, ?_⟩
  · refine NameMap.keys_congr fun id => ?_
    rw [settled id, Option.isSome_map]
    rfl
  · exact (settled_compileInOrder loaded arranged all).unique loaded settled
  · rw [settled id, Option.map_eq_some_iff] at result
    obtain ⟨model, found, run⟩ := result
    obtain ⟨context, rendered⟩ := renderedFrom_of_compileModel run
    exact ⟨model, context, found, rendered⟩
  · intro id model parent _ found reads ephemeral relation context run
    exact ⟨_, entry parent.id parent found,
      get?_refs_contextOf loaded settled reads found ephemeral run⟩

/-- The files of an ephemeral model and of another one that reads it. -/
def inlinedFiles : List (FilePath × String) :=
  [("models/a.sql", "\x7b\x7b config(materialized='ephemeral') \x7d\x7dselect 1"),
    ("models/b.sql", "select * from \x7b\x7b ref('a') \x7d\x7d")]

/-- What stands for the ephemeral model in the one that reads it. -/
theorem compile_settles_inlined :
    ∃ project model parent context built, ofSources (.default "") inlinedFiles = .ok project ∧
      project.get? "model.modelflow_project.b" = some model ∧
      project.get? parent.id = some parent ∧ parent.name = "a" ∧
      parent.id ∈ model.dependsOn ∧
      Materialization.ofText parent.materialized = .ephemeral ∧
      project.compile.get? "model.modelflow_project.b" = some (.ok built) ∧
      RenderedFrom project project.compile model context built ∧
      ∃ result, project.compile.get? parent.id = some result ∧
        context.refs.get? "a" = result.toOption.map fun built => subquery built.sql "a" := by
  obtain ⟨project, loaded, passes⟩ := exists_loaded (.default "") inlinedFiles
    (fun project : Project =>
      (project.get? "model.modelflow_project.b").any fun model : Model =>
        (project.get? "model.modelflow_project.a").any fun parent : Model =>
          decide (parent.id = "model.modelflow_project.a" ∧ parent.name = "a" ∧
            parent.id ∈ model.dependsOn ∧
            Materialization.ofText parent.materialized = .ephemeral) &&
          (project.compile.get? "model.modelflow_project.b").any fun result =>
            result.toOption.isSome) (by decide +kernel)
  obtain ⟨model, found, passes⟩ := (Option.any_eq_true _ _).mp passes
  obtain ⟨parent, held, passes⟩ := (Option.any_eq_true _ _).mp passes
  obtain ⟨facts, builds⟩ := (Bool.and_eq_true_iff.mp passes)
  obtain ⟨key, name, reads, ephemeral⟩ := of_decide_eq_true facts
  obtain ⟨result, entry, succeeds⟩ := (Option.any_eq_true _ _).mp builds
  cases result with
  | error error => cases succeeds
  | ok built =>
    have there : project.get? parent.id = some parent := key ▸ held
    obtain ⟨-, -, -, renders, inlines⟩ := compile_settles loaded
    obtain ⟨again, context, same, rendered⟩ := renders _ built entry
    obtain rfl := Option.some.inj (found.symm.trans same)
    have bound := inlines _ model parent found there reads ephemeral _ context rendered.bound
    rw [name] at bound
    exact ⟨project, model, parent, context, built, loaded, found, there, name, reads, ephemeral,
      entry, rendered, bound⟩

end Project
end SqlPipeline
