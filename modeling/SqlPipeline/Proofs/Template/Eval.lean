import SqlPipeline.Proofs.Template.Parser
import SqlPipeline.Template.Render

/-!
# Rendering a page

The assignments of a page bind no names that its calls look up, so `ref`, `source` and `config` are
the functions of every template and see the texts that stand for models and source tables.  A page
renders just when there is a text for everything that it reads.
-/

namespace SqlPipeline

open Template

/-- What the call renders to: the text that stands for what it reads, or nothing for settings. -/
def PlainCall.result (context : RenderContext) : PlainCall → Except Cause String
  | .ref _ name =>
    match context.refs.get? name.literal.value with
    | some text => .ok text
    | none => .error (.undefinedValue (some
        ("ref('" ++ name.literal.value ++ "') does not match any model")))
  | .source group table =>
    match context.sources.get? (sourceKey group.literal.value table.literal.value) with
    | some text => .ok text
    | none => .error (.undefinedValue (some
        ("source('" ++ group.literal.value ++ "', '" ++ table.literal.value ++
          "') is not defined")))
  | .config _ => .ok ""

/-- The cause is what the call reports where there is no text for what it reads. -/
def PlainCall.Reports (call : PlainCall) (cause : Cause) : Prop :=
  ∃ context, call.result context = .error cause

/-- The arguments of the call as values, with their keywords. -/
def PlainCall.values (call : PlainCall) : List (Option String × Value) :=
  call.arguments.map fun argument =>
    (argument.1.map Keyword.text, .string argument.2.literal.value)

/-- The arguments that the function of the call is given. -/
def PlainCall.args : PlainCall → Args
  | .ref none name => [.string name.literal.value]
  | .ref (some package) name => [.string package.literal.value, .string name.literal.value]
  | .source group table => [.string group.literal.value, .string table.literal.value]
  | .config [] => []
  | .config (setting :: settings) =>
    let entries := (setting :: settings).map fun setting =>
      (setting.1.text, Value.string setting.2.literal.value)
    [.keywords (NameMap.ofList entries).entries]

/-- The function that the call names. -/
def PlainCall.builtin : PlainCall → Builtin
  | .ref _ _ => .ref
  | .source _ _ => .source
  | .config _ => .config

namespace Template

variable {context : RenderContext} {call : PlainCall} {functions : Functions} {fuel : Nat}
  {scope : Scope}

/-! ## Names -/

theorem lookupEntry_textEntries (entries : List (String × String)) (name : String) :
    Value.lookupEntry (.string name)
        (entries.map fun entry => (.string entry.1, .string entry.2)) =
      (entries.lookup name).map .string := by
  induction entries with
  | nil => rfl
  | cons entry entries ih =>
    obtain ⟨key, text⟩ := entry
    have order : Value.order (.string name) (.string key) = compare name key := by
      rw [Value.order]
      · rfl
      all_goals exact nofun
    rw [List.map_cons, Value.lookupEntry, List.lookup_cons, order, ih]
    by_cases same : name = key
    · simp [same]
    · simp [beq_eq_false_iff_ne.mpr same, same]

/-- A map of texts has the texts of its names. -/
theorem attribute?_textMap (map : NameMap String) (name : String) :
    (RenderContext.textMap map).attribute? name = (map.get? name).map .string :=
  lookupEntry_textEntries map.entries name

/-- The names that a page sees, before it has bound any. -/
theorem lookup_ofContext (names : NameMap Value) (name : String) :
    (Scope.ofContext names).lookup name =
      (names.get? name).or ((Builtin.named? name).map .builtin) := rfl

theorem get?_names_of_function {function : String} (listed : function ∈ ["ref", "source", "config"])
    (context : RenderContext) : context.names.get? function = none := by
  have absent : ∀ name ∈ ["refs", "sources", "target", "vars", "this"], function ≠ name := by
    rintro name member rfl
    exact absurd member ((by decide : ∀ name ∈ ["ref", "source", "config"],
      name ∉ ["refs", "sources", "target", "vars", "this"]) function listed)
  simp only [List.forall_mem_cons] at absent
  obtain ⟨refs, sources, target, vars, this, -⟩ := absent
  cases own : context.this <;>
    simp [RenderContext.names, own, NameMap.ofList, NameMap.get?_insert, refs, sources, target,
      vars, this]

theorem get?_names_refs (context : RenderContext) :
    context.names.get? "refs" = some (RenderContext.textMap context.refs) := by
  cases own : context.this <;>
    simp [RenderContext.names, own, NameMap.ofList, NameMap.get?_insert]

theorem get?_names_sources (context : RenderContext) :
    context.names.get? "sources" = some (RenderContext.textMap context.sources) := by
  cases own : context.this <;>
    simp [RenderContext.names, own, NameMap.ofList, NameMap.get?_insert]

theorem Scope.groundLookup_bind_of_ne {name key : String} (other : key ≠ name) (scope : Scope)
    (value : Value) : (scope.bind name value).groundLookup key = scope.groundLookup key := by
  have enclosed : ∀ closures : List (NameMap Value), ∀ number place : Nat,
      ((closures.modify number (·.insert name value))[place]?).bind (·.get? key) =
        (closures[place]?).bind (·.get? key) := by
    intro closures number place
    rw [List.getElem?_modify]
    cases closures[place]? with
    | none => rfl
    | some names =>
      rw [Option.map_eq_map, Option.map_some, Option.bind_some, Option.bind_some]
      split
      · exact NameMap.get?_insert_of_ne _ _ other
      · rfl
  rw [Scope.bind]
  split
  next => rfl
  next frame frames shape =>
    rw [Scope.groundLookup, Scope.groundLookup]
    cases number : frame.closure with
    | none => rfl
    | some number => simp only [enclosed]

/-- Binding a name leaves all others as they are. -/
theorem Scope.lookup_bind_of_ne {name key : String} (other : key ≠ name) (scope : Scope)
    (value : Value) : (scope.bind name value).lookup key = scope.lookup key := by
  have frames : (scope.bind name value).frames.findSome? (·.locals.get? key) =
      scope.frames.findSome? (·.locals.get? key) := by
    rw [Scope.bind]
    split
    next => rfl
    next frame frames shape =>
      rw [shape, List.findSome?_cons, List.findSome?_cons, NameMap.get?_insert_of_ne _ _ other]
  rw [Scope.lookup, Scope.lookup, frames, Scope.groundLookup_bind_of_ne other]

/-- The names that calls look up have the values that they have before a template binds any. -/
def SeesContext (context : RenderContext) (scope : Scope) : Prop :=
  ∀ name ∈ keptNames, scope.lookup name = (Scope.ofContext context.names).lookup name

theorem seesContext_ofContext (context : RenderContext) :
    SeesContext context (.ofContext context.names) := fun _ _ => rfl

theorem SeesContext.bind (sees : SeesContext context scope) {name : String}
    (other : name ∉ keptNames) (value : Value) : SeesContext context (scope.bind name value) := by
  intro key kept
  have different : key ≠ name := by
    rintro rfl
    exact other kept
  rw [Scope.lookup_bind_of_ne different, sees key kept]

theorem SeesContext.lookup_function (sees : SeesContext context scope) (call : PlainCall) :
    scope.lookup call.function = some (.builtin call.builtin) := by
  have kept : ∀ name ∈ ["ref", "source", "config"], name ∈ keptNames := by decide
  rw [sees _ (kept _ call.function_mem), lookup_ofContext, get?_names_of_function call.function_mem]
  cases call <;> rfl

theorem SeesContext.lookup_refs (sees : SeesContext context scope) :
    scope.lookup "refs" = some (RenderContext.textMap context.refs) := by
  rw [sees "refs" (by decide), lookup_ofContext, get?_names_refs]
  rfl

theorem SeesContext.lookup_sources (sees : SeesContext context scope) :
    scope.lookup "sources" = some (RenderContext.textMap context.sources) := by
  rw [sees "sources" (by decide), lookup_ofContext, get?_names_sources]
  rfl

/-- What `ref` and `source` find in a map of texts. -/
theorem member?_textMap {lookup : String → Option Value} {name : String} {map : NameMap String}
    (holds : lookup name = some (RenderContext.textMap map)) (key : String) :
    Builtin.member? lookup name key = (map.get? key).map .string := by
  have found := attribute?_textMap map key
  rw [RenderContext.textMap] at holds found
  rw [Builtin.member?, holds]
  dsimp only
  rw [found]
  cases map.get? key <;> rfl

/-- `ref` finds the text of a model, whatever the package is. -/
theorem apply_ref {lookup : String → Option Value} {map : NameMap String}
    (holds : lookup "refs" = some (RenderContext.textMap map)) (package : Option String)
    (model : String) :
    Builtin.ref.apply lookup (package.toList.map .string ++ [.string model]) =
      match map.get? model with
      | some text => .ok (.string text)
      | none => .error (.undefinedValue (some
          ("ref('" ++ model ++ "') does not match any model"))) := by
  have found := member?_textMap holds model
  have texts : ∀ text, Args.textOf (.string text) = .ok text := fun _ => rfl
  rw [Builtin.apply, Builtin.applyRef]
  cases package <;>
    simp only [Option.toList_none, Option.toList_some, List.map_nil, List.map_singleton,
      List.nil_append, List.singleton_append, Args.requiredText, Args.required, Args.optionalText,
      Args.optional, texts, Args.finish, bind, Except.bind, pure, Except.pure, Option.getD_none,
      Option.getD_some, found] <;>
    cases map.get? model <;> rfl

/-- `source` finds the text of a source table by its key. -/
theorem apply_source {lookup : String → Option Value} {map : NameMap String}
    (holds : lookup "sources" = some (RenderContext.textMap map)) (source table : String) :
    Builtin.source.apply lookup [.string source, .string table] =
      match map.get? (sourceKey source table) with
      | some text => .ok (.string text)
      | none => .error (.undefinedValue (some
          ("source('" ++ source ++ "', '" ++ table ++ "') is not defined"))) := by
  have found := member?_textMap holds (sourceKey source table)
  have texts : ∀ text, Args.textOf (.string text) = .ok text := fun _ => rfl
  rw [Builtin.apply, Builtin.applySource]
  simp only [Args.requiredText, Args.required, texts, Args.finish, bind, Except.bind, pure,
    Except.pure, found]
  cases map.get? (sourceKey source table) <;> rfl

/-! ## Calls -/

theorem literal?_eq_some {expr : Expr} {value : Value} (known : expr.literal? = some value) :
    ∃ line, expr = .const value true line := by
  unfold Expr.literal? at known
  split at known
  next held line => exact ⟨line, by rw [Option.some.inj known]⟩
  next => cases known

theorem mapM_evaluate {args : List (Option String × Expr)} {values : List (Option String × Value)}
    (literal : args.map (fun arg => (arg.1, arg.2.literal?)) =
      values.map fun value => (value.1, some value.2)) (fuel : Nat) (scope : Scope) :
    (args.mapM fun (name, arg) => do return (name, ← Eval.evaluate functions (fuel + 1) arg) :
        Eval (List (Option String × Value))) scope = .ok (values, scope) := by
  induction args generalizing values with
  | nil =>
    cases values with
    | nil => rfl
    | cons => cases literal
  | cons arg args ih =>
    obtain ⟨name, arg⟩ := arg
    cases values with
    | nil => cases literal
    | cons value values =>
      obtain ⟨keyword, value⟩ := value
      rw [List.map_cons, List.map_cons, List.cons.injEq, Prod.mk.injEq] at literal
      obtain ⟨⟨same, known⟩, others⟩ := literal
      dsimp only at same known
      subst same
      obtain ⟨line, rfl⟩ := literal?_eq_some known
      have here : (do return (name, ← Eval.evaluate functions (fuel + 1) (.const value true line)) :
          Eval (Option String × Value)) scope = .ok ((name, value), scope) := by
        rw [Eval.evaluate]
        rfl
      rw [List.mapM_cons, bind_of_ok here, bind_of_ok (ih others)]
      rfl

/-- The function of a call is given the values of the arguments. -/
theorem evaluateArgs_call {args : List (Option String × Expr)}
    (literal : args.map (fun arg => (arg.1, arg.2.literal?)) =
      call.arguments.map Argument.reading) (fuel : Nat) (scope : Scope) :
    Eval.evaluateArgs functions (fuel + 2) args scope = .ok (call.args, scope) := by
  have values : args.map (fun arg => (arg.1, arg.2.literal?)) =
      call.values.map fun value => (value.1, some value.2) := by
    rw [literal, PlainCall.values, List.map_map]
    rfl
  rw [Eval.evaluateArgs, bind_of_ok (mapM_evaluate values fuel scope)]
  rcases call with ⟨package, name⟩ | ⟨group, table⟩ | settings
  · cases package <;> rfl
  · rfl
  · have values : (PlainCall.config settings).values =
        settings.map fun setting => (some setting.1.text, .string setting.2.literal.value) := by
      rw [PlainCall.values, PlainCall.arguments, List.map_map]
      rfl
    dsimp only
    rw [values, List.filterMap_map, List.filterMap_map]
    simp only [Function.comp_def, Option.isNone_some, Bool.false_eq_true, if_false,
      Option.map_some]
    have positional : settings.filterMap (fun _ => (none : Option Value)) = [] := by simp
    have keywords : settings.filterMap (fun setting =>
        some (setting.1.text, Value.string setting.2.literal.value)) =
          settings.map fun setting => (setting.1.text, .string setting.2.literal.value) := by simp
    rw [positional, keywords]
    cases settings <;> rfl

/-- A function tells what the call renders to. -/
theorem SeesContext.apply_call (sees : SeesContext context scope) (call : PlainCall) :
    call.builtin.apply scope.lookup call.args = (call.result context).map .string := by
  rcases call with ⟨package, name⟩ | ⟨group, table⟩ | settings
  · have found := apply_ref sees.lookup_refs (package.map (·.literal.value)) name.literal.value
    rw [PlainCall.builtin, PlainCall.result]
    cases package <;> refine found.trans ?_ <;>
      cases context.refs.get? name.literal.value <;> rfl
  · have found := apply_source sees.lookup_sources group.literal.value table.literal.value
    rw [PlainCall.builtin, PlainCall.result]
    refine found.trans ?_
    cases context.sources.get? (sourceKey group.literal.value table.literal.value) <;> rfl
  · cases settings <;> rfl

/-- A call of a page renders to what it reads, or reports that there is no such thing. -/
theorem SeesContext.evaluate_call (sees : SeesContext context scope) {expr : Expr}
    (reads : call.IsReadAs expr) (fuel : Nat) :
    Eval.evaluate Builtin.apply (fuel + 3) expr scope =
      Eval.onLine expr.lastLine ((call.result context).map .string) scope := by
  obtain ⟨args, start, line, rfl, literal⟩ := reads
  rw [Eval.evaluate, bind_of_ok (evaluateArgs_call literal fuel _)]
  have present : (get : Eval Scope) scope = .ok (scope, scope) := rfl
  rw [bind_of_ok present, sees.lookup_function]
  dsimp only
  rw [Eval.callValue, bind_of_ok present, sees.apply_call]

/-- An assignment of a text binds its name and renders to nothing. -/
theorem render_assignment (name text : String) (place line fuel : Nat) (scope : Scope) :
    Eval.render functions (fuel + 2) (.assign (.name name place) (.const (.string text) true line))
      scope = .ok ("", scope.bind name (.string text)) := by
  rw [Eval.render, Eval.evaluate]
  rfl

/-! ## Pages -/

/-- The statements of a page render if there is a text for every call, and then these texts are
parts of what is rendered; else the first call without one is reported. -/
theorem foldlM_render {calls : List PlainCall} {body : List Stmt} (reads : IsReadAs calls body)
    (sees : SeesContext context scope) {before : String} {outcome : Except Fault (String × Scope)}
    (run : (body.foldlM (fun text stmt => do
      return text ++ (← Eval.render Builtin.apply (fuel + 4) stmt)) before : Eval String) scope =
        outcome) :
    (∃ after final, outcome = .ok (before ++ after, final) ∧
      ∀ call ∈ calls, ∃ text, call.result context = .ok text ∧ text.toList <:+: after.toList) ∨
    ∃ call ∈ calls, ∃ cause line, call.result context = .error cause ∧
      outcome = .error ⟨cause, line⟩ := by
  induction reads generalizing before scope with
  | nil =>
    exact .inl ⟨"", scope, by rw [String.append_empty]; exact run.symm, List.forall_mem_nil _⟩
  | @data calls body text _ ih =>
    have here : (do
        return before ++ (← Eval.render Builtin.apply (fuel + 4) (.data text)) : Eval String)
        scope = .ok (before ++ text, scope) := by
      rw [Eval.render]
      rfl
    rw [List.foldlM_cons, bind_of_ok here] at run
    rcases ih sees run with ⟨after, final, ends, bound⟩ | unbound
    · refine .inl ⟨text ++ after, final, by rw [ends, String.append_assoc], fun call listed => ?_⟩
      obtain ⟨part, result, inside⟩ := bound call listed
      exact ⟨part, result, by
        rw [String.toList_append]
        exact inside.trans (List.suffix_append _ _).isInfix⟩
    · exact .inr unbound
  | @call call calls body expr read _ ih =>
    have value := sees.evaluate_call read fuel
    cases result : call.result context with
    | ok text =>
      rw [result] at value
      have here : (do
          return before ++ (← Eval.render Builtin.apply (fuel + 4) (.emit expr)) : Eval String)
          scope = .ok (before ++ text, scope) := by
        rw [Eval.render, bind_of_ok (bind_of_ok value)]
        rfl
      rw [List.foldlM_cons, bind_of_ok here] at run
      rcases ih sees run with ⟨after, final, ends, bound⟩ | ⟨unbound, listed, reported⟩
      · refine .inl ⟨text ++ after, final, by rw [ends, String.append_assoc], ?_⟩
        rw [String.toList_append]
        refine List.forall_mem_cons.mpr
          ⟨⟨text, result, (List.prefix_append _ _).isInfix⟩, fun call listed => ?_⟩
        obtain ⟨part, result, inside⟩ := bound call listed
        exact ⟨part, result, inside.trans (List.suffix_append _ _).isInfix⟩
      · exact .inr ⟨unbound, List.mem_cons_of_mem _ listed, reported⟩
    | error cause =>
      rw [result] at value
      have here : (do
          return before ++ (← Eval.render Builtin.apply (fuel + 4) (.emit expr)) : Eval String)
          scope = .error ⟨cause, expr.lastLine⟩ := by
        rw [Eval.render, bind_of_error (bind_of_error value)]
      rw [List.foldlM_cons, bind_of_error here] at run
      exact .inr ⟨call, List.mem_cons_self, cause, expr.lastLine, result, run.symm⟩
  | @assignment calls body name text place line other _ ih =>
    have here : (do
        return before ++ (← Eval.render Builtin.apply (fuel + 4)
          (.assign (.name name place) (.const (.string text) true line))) : Eval String) scope =
        .ok (before, scope.bind name (.string text)) := by
      rw [bind_of_ok (render_assignment name text place line (fuel + 2) scope), String.append_empty]
      rfl
    rw [List.foldlM_cons, bind_of_ok here] at run
    exact ih (sees.bind other _) run

/-- A page is rendered if there is a text for every call, and then these texts are parts of what is
rendered; else the first call without one is reported. -/
theorem renderTemplate_page {page : Page} (readable : page.Readable) (context : RenderContext) :
    (∃ text, renderTemplate Builtin.apply page.text context.names = .ok text ∧
      ∀ block ∈ page.blocks, ∃ part, block.call.result context = .ok part ∧
        part.toList <:+: text.toList) ∨
    ∃ block ∈ page.blocks, ∃ cause line, block.call.result context = .error cause ∧
      renderTemplate Builtin.apply page.text context.names = .error ⟨cause, line⟩ := by
  obtain ⟨body, parsed, reads⟩ := exists_parse readable
  have whole : renderTemplate Builtin.apply page.text context.names =
      (Eval.renderBody Builtin.apply (stepLimit page.text.length) body
        (.ofContext context.names)).map (·.1) := by
    rw [renderTemplate, parsed]
    rfl
  obtain ⟨fuel, enough⟩ : ∃ fuel, stepLimit page.text.length = fuel + 5 :=
    ⟨stepLimit page.text.length - 5, by rw [stepLimit]; omega⟩
  rw [whole, enough]
  generalize run :
    Eval.renderBody Builtin.apply (fuel + 5) body (.ofContext context.names) = outcome
  rw [Eval.renderBody] at run
  rcases foldlM_render reads (seesContext_ofContext context) run with
    ⟨text, final, rfl, bound⟩ | ⟨call, listed, cause, line, unbound, rfl⟩
  · exact .inl ⟨text, by rw [String.empty_append]; rfl, fun block listed =>
      bound _ (List.mem_map_of_mem listed)⟩
  · obtain ⟨block, member, rfl⟩ := List.mem_map.mp listed
    exact .inr ⟨block, member, cause, line, unbound, rfl⟩

/-- A tag begins as templates do. -/
theorem exists_chars_tag (tag : PlainTag) :
    ∃ c, ['\x7b', c] ∈ [['\x7b', '\x7b'], ['\x7b', '%'], ['\x7b', '#']] ∧
      ∃ rest, tag.chars = ['\x7b', c] ++ rest := by
  cases tag with
  | block block =>
    exact ⟨'\x7b', by decide, block.content ++ ModelCalls.closing, by
      rw [PlainTag.chars, PlainBlock.chars, ModelCalls.opening, List.append_assoc]⟩
  | comment comment =>
    exact ⟨'#', by decide, comment.content ++ ['#', '\x7d'], by
      rw [PlainTag.chars, PlainComment.chars, List.append_assoc]⟩
  | assignment assignment =>
    exact ⟨'%', by decide, assignment.content ++ ['%', '\x7d'], by
      rw [PlainTag.chars, PlainAssignment.chars, List.append_assoc]⟩

theorem hasTemplate_page {page : Page} (filled : page.blocks ≠ []) :
    hasTemplate page.text = true := by
  obtain ⟨parts, last⟩ := page
  cases parts with
  | nil => exact absurd rfl filled
  | cons part parts =>
    obtain ⟨c, listed, rest, begins⟩ := exists_chars_tag part.2
    have text : (Page.text ⟨part :: parts, last⟩).toList =
        part.1.chars ++ (['\x7b', c] ++ (rest ++ Page.chars ⟨parts, last⟩)) := by
      simp [Page.text, Page.chars, begins]
    rw [hasTemplate, List.any_eq_true]
    refine ⟨_, listed, ?_⟩
    rw [text, Text.occursIn, Text.splitFirst?_append_of_not_mem part.1.braceless,
      Text.splitFirst?_append]
    rfl

/-- A model that is a page is rendered just when there is a text for every call of it, whatever
signs stand in its blocks, and these texts are parts of what is rendered; a failure reports a call
for which there is none. -/
theorem renderModel_page {page : Page} (readable : page.Readable) (context : RenderContext)
    (path : Option String) :
    (∃ rendered, renderModel page.text context path = .ok rendered ∧
      ∀ block ∈ page.blocks, ∃ part, block.call.result context = .ok part ∧
        part.toList <:+: rendered.text.toList) ∨
    ∃ block ∈ page.blocks, ∃ cause line, block.call.result context = .error cause ∧
      renderModel page.text context path = .error ⟨⟨cause, line⟩, path⟩ := by
  by_cases filled : page.blocks = []
  · refine .inl ?_
    rw [filled, renderModel]
    split
    · rcases renderTemplate_page readable context with ⟨text, run, -⟩ | ⟨block, listed, -⟩
      · exact ⟨⟨text, true⟩, by rw [run], List.forall_mem_nil _⟩
      · rw [filled] at listed
        cases listed
    · exact ⟨⟨page.text, false⟩, rfl, List.forall_mem_nil _⟩
  · rw [renderModel, if_pos (hasTemplate_page filled)]
    rcases renderTemplate_page readable context with
      ⟨text, run, bound⟩ | ⟨block, listed, cause, line, unbound, run⟩
    · rw [run]
      exact .inl ⟨⟨text, true⟩, rfl, bound⟩
    · rw [run]
      exact .inr ⟨block, listed, cause, line, unbound, rfl⟩

end Template
end SqlPipeline
