import SqlPipeline.Proofs.Template.Agreement
import SqlPipeline.Proofs.Template.Eval

/-!
# What the functions of every template see

`ref`, `source` and `var` look up the names `refs`, `sources` and `vars` where they are called. They
find the maps of the context wherever the call stands, in a loop or in a function as well, and
whatever else is bound there, as long as the template does not bind these names. Where it does, its
own value comes before the map of the context, and a function finds it only if it mentions the name.
-/

namespace SqlPipeline.Template

/-- The name that a function looks up to find what it returns. -/
def Builtin.mapName? : Builtin → Option String
  | .ref => some "refs"
  | .source => some "sources"
  | .var => some "vars"
  | .config => none
  | .range => none

/-- The names under which a context has the maps that functions look things up in. -/
def RenderContext.mapNames : List String := ["refs", "sources", "vars"]

/-- The names that a template may bind. -/
def boundNames (source : String) : List String :=
  match parse source with
  | .ok body => Stmt.boundNamesOfAll body
  | .error _ => []

/-- The functions of every template, each of which sees the context, unless the template binds the
name that it looks up. -/
def RenderContext.functions (context : RenderContext) (bound : List String) : Functions :=
  fun function lookup args =>
    if function.mapName?.any bound.contains then function.apply lookup args
    else function.apply context.names.get? args

variable {context other : RenderContext} {function : Builtin} {name : String} {scope : Scope}
  {lookup lookup' : String → Option Value}

/-- The result of a function depends on the value of the name that it looks up. -/
theorem Builtin.apply_congr
    (same : ∀ name, function.mapName? = some name → lookup name = lookup' name) (args : Args) :
    function.apply lookup args = function.apply lookup' args := by
  have member : ∀ name key, function.mapName? = some name →
      Builtin.member? lookup name key = Builtin.member? lookup' name key := by
    intro name key reads
    rw [Builtin.member?, Builtin.member?, same name reads]
  cases function with
  | ref =>
    rw [Builtin.apply, Builtin.apply, Builtin.applyRef, Builtin.applyRef]
    simp only [member "refs" _ rfl]
  | source =>
    rw [Builtin.apply, Builtin.apply, Builtin.applySource, Builtin.applySource]
    simp only [member "sources" _ rfl]
  | var =>
    rw [Builtin.apply, Builtin.apply, Builtin.applyVar, Builtin.applyVar]
    simp only [member "vars" _ rfl]
  | config => rfl
  | range => rfl

theorem get?_names_vars (context : RenderContext) :
    context.names.get? "vars" =
      some (.map (context.vars.entries.map fun entry => (.string entry.1, .ofJson entry.2))) := by
  cases own : context.this <;>
    simp [RenderContext.names, own, NameMap.ofList, NameMap.get?_insert]

theorem Builtin.mem_mapNames_of_mapName? (reads : function.mapName? = some name) :
    name ∈ RenderContext.mapNames := by
  cases function <;> cases reads <;> simp [RenderContext.mapNames]

theorem isSome_get?_names (context : RenderContext) (listed : name ∈ RenderContext.mapNames) :
    (context.names.get? name).isSome = true := by
  simp only [RenderContext.mapNames, List.mem_cons, List.not_mem_nil, or_false] at listed
  rcases listed with rfl | rfl | rfl
  · rw [get?_names_refs, Option.isSome_some]
  · rw [get?_names_sources, Option.isSome_some]
  · rw [get?_names_vars, Option.isSome_some]

/-- What a function finds in a context is in its maps of models, source tables and variables. -/
theorem apply_names_congr (refs : context.refs = other.refs)
    (sources : context.sources = other.sources) (vars : context.vars = other.vars)
    (function : Builtin) (args : Args) :
    function.apply context.names.get? args = function.apply other.names.get? args := by
  refine Builtin.apply_congr (fun name reads => ?_) args
  cases function <;> cases reads
  case ref => rw [get?_names_refs, get?_names_refs, refs]
  case source => rw [get?_names_sources, get?_names_sources, sources]
  case var => rw [get?_names_vars, get?_names_vars, vars]

/-! ## Names that a template binds -/

/-- Names of the context that statements do not bind have its values wherever they are looked up. -/
theorem renderBody_functions (context : RenderContext) (body : List Stmt) (fuel : Nat) :
    Eval.renderBody Builtin.apply fuel body (.ofContext context.names) =
      Eval.renderBody (context.functions (Stmt.boundNamesOfAll body)) fuel body
        (.ofContext context.names) := by
  generalize bound_eq : Stmt.boundNamesOfAll body = bound
  let kept := RenderContext.mapNames.filter fun name => !bound.contains name
  have unbound : kept.Disjoint (Stmt.boundNamesOfAll body) := by
    intro name listed member
    have absent := (List.mem_filter.mp listed).2
    rw [bound_eq] at member
    simp [member] at absent
  have present : ∀ name ∈ kept, (context.names.get? name).isSome = true :=
    fun name listed => isSome_get?_names context (List.mem_filter.mp listed).1
  have same : ∀ scope, Scope.Keeps kept context.names scope → ∀ function args,
      Builtin.apply function scope.lookup args =
        context.functions bound function scope.lookup args := by
    intro scope keeps function args
    rw [RenderContext.functions]
    split
    next => rfl
    next unshadowed =>
      refine Builtin.apply_congr (fun name reads => ?_) args
      rw [reads, Option.any_some] at unshadowed
      have listed : name ∈ kept :=
        List.mem_filter.mpr ⟨Builtin.mem_mapNames_of_mapName? reads, by simpa using unshadowed⟩
      exact keeps.lookup listed (present name listed)
  have within := Eval.alikeWithin present same fuel
  exact (within.renderBody body unbound _ (Scope.Keeps.ofContext kept context.names)).1

theorem renderTemplate_functions (context : RenderContext) (source : String) :
    renderTemplate Builtin.apply source context.names =
      renderTemplate (context.functions (boundNames source)) source context.names := by
  unfold renderTemplate boundNames
  cases parse source with
  | error fault => simp only [bind, Except.bind]
  | ok body =>
    have alike := renderBody_functions context body (stepLimit source.length)
    simp only [bind, Except.bind, StateT.run, alike]

/-- A template renders as if each function were given the context instead of the scope of the call,
unless the template binds the name that the function looks up.  What a function returns for the
context depends on the models, source tables and variables alone, and in any scope, a binding of a
name that it does not look up makes no difference. -/
theorem functions_see_context (context : RenderContext) (source : String) :
    renderTemplate Builtin.apply source context.names =
        renderTemplate (context.functions (boundNames source)) source context.names ∧
      (∀ other : RenderContext, context.refs = other.refs → context.sources = other.sources →
        context.vars = other.vars → ∀ (function : Builtin) (args : Args),
          function.apply context.names.get? args = function.apply other.names.get? args) ∧
      ∀ (function : Builtin) (scope : Scope) (name : String) (value : Value) (args : Args),
        function.mapName? ≠ some name →
          function.apply (scope.bind name value).lookup args =
            function.apply scope.lookup args := by
  refine ⟨?_, ?_, ?_⟩
  · exact renderTemplate_functions context source
  · intro other refs sources vars function args
    exact apply_names_congr refs sources vars function args
  · intro function scope name value args unread
    refine Builtin.apply_congr (fun key reads => ?_) args
    refine Scope.lookup_bind_of_ne ?_ scope value
    rintro rfl
    exact unread reads

/-- A context with a single model. -/
def oneModel : RenderContext :=
  .addRef (.ofTarget ⟨"dev", "main", none, 1⟩) "a" "A"

/-- Calls of `ref` in a function, at the top level and in a loop that calls the function, each with
other names around it. -/
def nestedCalls : String :=
  "\x7b% macro table(name) %\x7d\x7b% set row = name %\x7d" ++
    "\x7b\x7b ref(row) \x7d\x7d\x7b% endmacro %\x7d" ++
    "\x7b\x7b ref('a') \x7d\x7d" ++
    "\x7b% for name in ['a'] %\x7d\x7b\x7b ref(name) ~ table(name) \x7d\x7d\x7b% endfor %\x7d"

theorem functions_see_context_nested :
    boundNames nestedCalls = ["table", "caller", "name", "row", "loop", "name"] ∧
      (renderTemplate (oneModel.functions (boundNames nestedCalls)) nestedCalls
        oneModel.names).toOption = some "AAA" ∧
      Builtin.ref.apply oneModel.names.get? [.string "a"] =
        Builtin.ref.apply ({ oneModel with this := some "b" } : RenderContext).names.get?
          [.string "a"] ∧
      Builtin.ref.mapName? ≠ some "row" ∧
      ∀ scope : Scope, Builtin.ref.apply (scope.bind "row" (.string "a")).lookup [.string "a"] =
        Builtin.ref.apply scope.lookup [.string "a"] := by
  obtain ⟨same, maps, others⟩ := functions_see_context oneModel nestedCalls
  have rendered : (renderTemplate Builtin.apply nestedCalls oneModel.names).toOption =
      some "AAA" := by decide +kernel
  have unread : Builtin.ref.mapName? ≠ some "row" := by decide
  refine ⟨by decide +kernel, same ▸ rendered, maps _ rfl rfl rfl .ref _, unread, fun scope => ?_⟩
  exact others .ref scope "row" (.string "a") _ unread

/-- At the top level, `ref` finds a model in a map that the template itself has bound; in a function
that does not mention the map it finds the model of the context. -/
theorem ref_finds_own_map :
    (renderTemplate Builtin.apply "\x7b\x7b ref('a') \x7d\x7d" oneModel.names).toOption = some "A" ∧
      (renderTemplate Builtin.apply
        "\x7b% set refs = \x7b'a': 'Z'\x7d %\x7d\x7b\x7b ref('a') \x7d\x7d"
        oneModel.names).toOption = some "Z" ∧
      (renderTemplate Builtin.apply
        ("\x7b% set refs = \x7b'a': 'Z'\x7d %\x7d" ++
          "\x7b% macro table() %\x7d\x7b\x7b ref('a') \x7d\x7d\x7b% endmacro %\x7d" ++
          "\x7b\x7b table() \x7d\x7d")
        oneModel.names).toOption = some "A" := by
  exact ⟨by decide +kernel, by decide +kernel, by decide +kernel⟩

end SqlPipeline.Template
