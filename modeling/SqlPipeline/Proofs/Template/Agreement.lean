import SqlPipeline.Proofs.Success
import SqlPipeline.Proofs.Template.Parser
import SqlPipeline.Proofs.Template.Shadowing

/-!
# Evaluation with other functions

A template renders alike with two choices of functions if these return the same in every scope that
arises. By induction on the nested steps that are left, a scope that arises keeps the values that
context names have, as long as no statement binds them.
-/

namespace SqlPipeline.Template

namespace Eval

variable {α β : Type} {P : Scope → Prop}

/-! ## Computations that do the same -/

/-- Two computations do the same from every scope with a property, and keep the property. -/
def Alike (P : Scope → Prop) (first second : Eval α) : Prop :=
  ∀ scope, P scope → first scope = second scope ∧
    ∀ value after, first scope = .ok (value, after) → P after

namespace Alike

theorem pure (value : α) : Alike P (Pure.pure value) (Pure.pure value) := by
  intro scope holds
  refine ⟨rfl, fun _ _ run => ?_⟩
  cases run
  exact holds

theorem fail (line : Nat) (cause : Cause) :
    Alike P (Eval.fail line cause : Eval α) (Eval.fail line cause) :=
  fun _ _ => ⟨rfl, fun _ _ run => nomatch run⟩

theorem onLine (line : Nat) (result : Except Cause α) :
    Alike P (Eval.onLine line result) (Eval.onLine line result) := by
  cases result with
  | ok value => exact .pure value
  | error cause => exact .fail line cause

theorem onLine_bind {line : Nat} {result : Except Cause α} {next other : α → Eval β}
    (rest : ∀ value, result = .ok value → Alike P (next value) (other value)) :
    Alike P (Eval.onLine line result >>= next) (Eval.onLine line result >>= other) := by
  cases result with
  | ok value => exact rest value rfl
  | error cause => exact fun _ _ => ⟨rfl, fun _ _ run => nomatch run⟩

theorem bind {first second : Eval α} {next other : α → Eval β} (start : Alike P first second)
    (rest : ∀ value, Alike P (next value) (other value)) :
    Alike P (first >>= next) (second >>= other) := by
  intro scope holds
  obtain ⟨same, kept⟩ := start scope holds
  cases run : first scope with
  | ok pair =>
    obtain ⟨value, after⟩ := pair
    rw [bind_of_ok run, bind_of_ok (same ▸ run)]
    exact rest value after (kept value after run)
  | error fault =>
    rw [bind_of_error run, bind_of_error (same ▸ run)]
    exact ⟨rfl, fun _ _ ended => nomatch ended⟩

/-- What is done with the present scope may rely on its property. -/
theorem get_bind {next other : Scope → Eval β}
    (rest : ∀ scope, P scope → Alike P (next scope) (other scope)) :
    Alike P (get >>= next) (get >>= other) :=
  fun scope holds => rest scope holds scope holds

theorem set {scope : Scope} (holds : P scope) :
    Alike P (set scope : Eval PUnit) (set scope) := by
  refine fun _ _ => ⟨rfl, fun _ _ run => ?_⟩
  cases run
  exact holds

theorem modify {f : Scope → Scope} (keeps : ∀ scope, P scope → P (f scope)) :
    Alike P (modify f : Eval PUnit) (modify f) := by
  refine fun scope holds => ⟨rfl, fun _ _ run => ?_⟩
  cases run
  exact keeps scope holds

theorem foldlM {step other : β → α → Eval β} {items : List α}
    (each : ∀ item ∈ items, ∀ before, Alike P (step before item) (other before item))
    (start : β) : Alike P (items.foldlM step start) (items.foldlM other start) := by
  induction items generalizing start with
  | nil => exact .pure start
  | cons item items ih =>
    obtain ⟨here, later⟩ := List.forall_mem_cons.mp each
    rw [List.foldlM_cons, List.foldlM_cons]
    exact (here start).bind (ih later)

theorem mapM {step other : α → Eval β} {items : List α}
    (each : ∀ item ∈ items, Alike P (step item) (other item)) :
    Alike P (items.mapM step) (items.mapM other) := by
  induction items with
  | nil => exact .pure []
  | cons item items ih =>
    obtain ⟨here, later⟩ := List.forall_mem_cons.mp each
    rw [List.mapM_cons, List.mapM_cons]
    exact here.bind fun value => (ih later).bind fun values => .pure _

theorem filterMapM {step other : α → Eval (Option β)} {items : List α}
    (each : ∀ item ∈ items, Alike P (step item) (other item)) :
    Alike P (items.filterMapM step) (items.filterMapM other) := by
  induction items with
  | nil => exact .pure []
  | cons item items ih =>
    obtain ⟨here, later⟩ := List.forall_mem_cons.mp each
    rw [List.filterMapM_cons, List.filterMapM_cons]
    refine here.bind fun value => ?_
    cases value with
    | none => exact ih later
    | some value => exact (ih later).bind fun values => .pure _

theorem forM {step other : α → Eval PUnit} {items : List α}
    (each : ∀ item ∈ items, Alike P (step item) (other item)) :
    Alike P (items.forM step) (items.forM other) := by
  induction items with
  | nil => exact .pure _
  | cons item items ih =>
    obtain ⟨here, later⟩ := List.forall_mem_cons.mp each
    exact here.bind fun _ => ih later

end Alike

/-! ## Values and targets -/

theorem alike_memberOf (line : Nat) (value : Value) (found : Option Value) :
    Alike P (memberOf line value found) (memberOf line value found) := by
  unfold memberOf
  split
  · exact .fail _ _
  · exact .pure _
  · exact .pure _

/-- Looking at the target of an assignment changes nothing. -/
theorem alike_present (line : Nat) (target : Target) :
    Alike P (present line target) (present line target) := by
  match target with
  | .name name _ => exact .get_bind fun _ _ => .pure _
  | .list _ _ => exact .pure _
  | .member owner name =>
    rw [present]
    exact (alike_present line owner).bind fun value => alike_memberOf line value _

section

variable {kept : List String} {ground : NameMap Value}

mutual

theorem alike_bindTarget : ∀ (target : Target) (value : Value), kept.Disjoint target.names →
    Alike (Scope.Keeps kept ground) (bindTarget target value) (bindTarget target value)
  | .name name _, value, unbound => by
    rw [Target.names, List.disjoint_singleton] at unbound
    rw [bindTarget]
    exact .modify fun _ keeps => keeps.bind unbound value
  | .list targets line, value, unbound => by
    rw [Target.names] at unbound
    rw [bindTarget]
    split
    · split
      · exact alike_bindTargets targets _ unbound
      · exact .fail _ _
    · exact .fail _ _
  | .member owner _, value, _ => by
    rw [bindTarget]
    exact (alike_present owner.line owner).bind fun _ => .fail _ _

theorem alike_bindTargets : ∀ (targets : List Target) (values : List Value),
    kept.Disjoint (Target.namesOfAll targets) →
    Alike (Scope.Keeps kept ground) (bindTargets targets values) (bindTargets targets values)
  | [], _, _ => by
    rw [bindTargets]
    · exact .pure _
    · exact nofun
  | target :: targets, [], _ => by
    rw [bindTargets]
    · exact .pure _
    · exact nofun
  | target :: targets, value :: values, unbound => by
    rw [Target.namesOfAll, List.disjoint_append_right] at unbound
    rw [bindTargets]
    exact (alike_bindTarget target value unbound.1).bind fun _ =>
      alike_bindTargets targets values unbound.2

end

theorem alike_pushFrame (line : Nat) :
    Alike (Scope.Keeps kept ground) (pushFrame line) (pushFrame line) := by
  refine .get_bind fun scope keeps => ?_
  split
  · exact (Alike.fail _ _).bind fun _ => .modify fun _ keeps => keeps.push
  · exact .modify fun _ keeps => keeps.push

theorem alike_loopItems (line : Nat) (range : Value) :
    Alike P (loopItems line range) (loopItems line range) := by
  unfold loopItems
  split
  · exact .pure _
  · exact .fail _ _

end

/-! ## Parameters -/

theorem map_fst_paramValues {keywords : List (String × Value)} {params : List String}
    {values : List Value} {entries : List (String × Value)}
    (ok : paramValues keywords params values = .ok entries) : entries.map (·.1) = params := by
  induction params generalizing values entries with
  | nil =>
    cases values with
    | nil =>
      rw [paramValues] at ok
      cases ok
      rfl
    | cons value values =>
      rw [paramValues] at ok
      cases ok
  | cons param params ih =>
    cases values with
    | nil =>
      rw [paramValues] at ok
      obtain ⟨rest, later, done⟩ := bind_eq_ok_iff.mp ok
      cases done
      rw [List.map_cons, ih later]
    | cons value values =>
      rw [paramValues] at ok
      split at ok
      · cases ok
      · obtain ⟨rest, later, done⟩ := bind_eq_ok_iff.mp ok
        cases done
        rw [List.map_cons, ih later]

/-- What a call binds first are parameters, or `caller`. -/
theorem mem_params_of_bindings {definition : Definition} {args : Args}
    {bound : List (String × Value × Option Expr)} (ok : bindings definition args = .ok bound)
    {name : String} (listed : name ∈ bound.map (·.1)) :
    name ∈ "caller" :: definition.signature.params := by
  unfold bindings at ok
  generalize splitKeywords args = parts at ok
  obtain ⟨values, read, ok⟩ := bind_eq_ok_iff.mp ok
  have paired : ∀ defaults : List (Option Expr),
      name ∈ (List.zipWith (fun entry default => (entry.1, entry.2, default)) values
        defaults).map (·.1) → name ∈ definition.signature.params := by
    intro defaults listed
    obtain ⟨binding, member, rfl⟩ := List.mem_map.mp listed
    rw [← List.map_uncurry_zip_eq_zipWith] at member
    obtain ⟨pair, together, rfl⟩ := List.mem_map.mp member
    rw [← map_fst_paramValues read]
    exact List.mem_map_of_mem (List.of_mem_zip together).1
  dsimp only at ok
  split at ok
  · split at ok
    · cases ok
    · cases ok
      rw [List.map_append, List.mem_append] at listed
      rcases listed with plain | caller
      · exact List.mem_cons_of_mem _ (paired _ plain)
      · exact List.mem_cons.mpr (.inl (List.mem_singleton.mp caller))
  · split at ok
    · cases ok
    · cases ok
      exact List.mem_cons_of_mem _ (paired _ listed)

/-! ## Evaluation -/

section

variable {kept : List String} {ground : NameMap Value} {functions others : Functions} {fuel : Nat}

/-- With two choices of functions, all evaluation with a bound on the steps is alike where names
keep the values of the context. -/
structure AlikeWithin (kept : List String) (ground : NameMap Value) (functions others : Functions)
    (fuel : Nat) : Prop where
  evaluate : ∀ expr, Alike (Scope.Keeps kept ground)
    (Eval.evaluate functions fuel expr) (Eval.evaluate others fuel expr)
  chain : ∀ first operands, Alike (Scope.Keeps kept ground)
    (evaluateChain functions fuel first operands) (evaluateChain others fuel first operands)
  args : ∀ args, Alike (Scope.Keeps kept ground)
    (evaluateArgs functions fuel args) (evaluateArgs others fuel args)
  call : ∀ line callee args, Alike (Scope.Keeps kept ground)
    (callValue functions fuel line callee args) (callValue others fuel line callee args)
  body : ∀ bindings body, kept.Disjoint (bindings.map (·.1)) →
    kept.Disjoint (Stmt.boundNamesOfAll body) → Alike (Scope.Keeps kept ground)
      (callBody functions fuel bindings body) (callBody others fuel bindings body)
  renderBody : ∀ body, kept.Disjoint (Stmt.boundNamesOfAll body) → Alike (Scope.Keeps kept ground)
    (Eval.renderBody functions fuel body) (Eval.renderBody others fuel body)
  render : ∀ stmt, kept.Disjoint stmt.boundNames → Alike (Scope.Keeps kept ground)
    (Eval.render functions fuel stmt) (Eval.render others fuel stmt)

theorem AlikeWithin.zero : AlikeWithin kept ground functions others 0 where
  evaluate := fun _ => by
    rw [Eval.evaluate, Eval.evaluate]
    exact .fail _ _
  chain := fun _ _ => by
    rw [evaluateChain, evaluateChain]
    exact .fail _ _
  args := fun _ => by
    rw [evaluateArgs, evaluateArgs]
    exact .pure _
  call := fun _ _ _ => by
    rw [callValue, callValue]
    exact .fail _ _
  body := fun _ _ _ _ => by
    rw [callBody, callBody]
    exact .fail _ _
  renderBody := fun _ _ => by
    rw [Eval.renderBody, Eval.renderBody]
    exact .fail _ _
  render := fun _ _ => by
    rw [Eval.render, Eval.render]
    exact .fail _ _

/-- A call of a name or a member has its own way to find what is called. -/
theorem AlikeWithin.evaluate_call (within : AlikeWithin kept ground functions others fuel)
    (callee : Expr) (args : List (Option String × Expr)) (line : Nat) :
    Alike (Scope.Keeps kept ground) (Eval.evaluate functions (fuel + 1) (.call callee args line))
      (Eval.evaluate others (fuel + 1) (.call callee args line)) := by
  cases callee
  case name name start =>
    rw [Eval.evaluate, Eval.evaluate]
    refine (within.args args).bind fun args => .get_bind fun scope _ => ?_
    cases scope.lookup name with
    | none => exact .fail _ _
    | some callee => exact within.call _ callee args
  case member operand name =>
    rw [Eval.evaluate, Eval.evaluate]
    refine (within.evaluate operand).bind fun value => (within.args args).bind fun args => ?_
    cases value.attribute? name with
    | none => exact .fail _ _
    | some callee => exact within.call _ callee args
  all_goals
    rw [Eval.evaluate, Eval.evaluate]
    · exact (within.evaluate _).bind fun callee => (within.args args).bind fun args =>
        within.call _ callee args
    all_goals exact nofun

theorem AlikeWithin.evaluate_choice (within : AlikeWithin kept ground functions others fuel)
    (condition whenTrue : Expr) (whenFalse : Option Expr) :
    Alike (Scope.Keeps kept ground)
      (Eval.evaluate functions (fuel + 1) (.choice condition whenTrue whenFalse))
      (Eval.evaluate others (fuel + 1) (.choice condition whenTrue whenFalse)) := by
  cases whenFalse with
  | none =>
    rw [Eval.evaluate, Eval.evaluate]
    refine (within.evaluate condition).bind fun _ => ?_
    split
    · exact within.evaluate whenTrue
    · exact .pure _
  | some whenFalse =>
    rw [Eval.evaluate, Eval.evaluate]
    refine (within.evaluate condition).bind fun _ => ?_
    split
    · exact within.evaluate whenTrue
    · exact within.evaluate whenFalse

theorem AlikeWithin.evaluate_succ (within : AlikeWithin kept ground functions others fuel)
    (expr : Expr) : Alike (Scope.Keeps kept ground)
      (Eval.evaluate functions (fuel + 1) expr) (Eval.evaluate others (fuel + 1) expr) := by
  cases expr
  case call callee args line => exact within.evaluate_call callee args line
  case choice condition whenTrue whenFalse =>
    exact within.evaluate_choice condition whenTrue whenFalse
  all_goals rw [Eval.evaluate, Eval.evaluate]
  case name name line => exact .get_bind fun _ _ => .pure _
  case const value isLiteral line => exact .pure _
  case not operand => exact (within.evaluate operand).bind fun _ => .pure _
  case neg operand line => exact (within.evaluate operand).bind fun _ => .onLine _ _
  case binary op left right =>
    exact (within.evaluate left).bind fun _ => (within.evaluate right).bind fun _ => .onLine _ _
  case chain first operands =>
    exact (within.evaluate first).bind fun _ => (within.chain _ _).bind fun _ => .pure _
  case both left right =>
    refine (within.evaluate left).bind fun _ => ?_
    split
    · exact within.evaluate right
    · exact .pure _
  case either left right =>
    refine (within.evaluate left).bind fun _ => ?_
    split
    · exact .pure _
    · exact within.evaluate right
  case filter filter operand args =>
    exact (within.evaluate operand).bind fun _ => (within.args args).bind fun _ => .onLine _ _
  case test test operand args =>
    refine (within.evaluate operand).bind fun _ => (within.args args).bind fun _ => ?_
    exact (Alike.onLine _ _).bind fun _ => .pure _
  case member operand name =>
    exact (within.evaluate operand).bind fun value => alike_memberOf _ value _
  case item operand key =>
    refine (within.evaluate operand).bind fun value => (within.evaluate key).bind fun _ => ?_
    exact alike_memberOf _ value _
  case list items line =>
    exact (Alike.mapM fun item _ => within.evaluate item).bind fun _ => .pure _
  case map entries line =>
    refine (Alike.mapM fun entry _ => ?_).bind fun _ => .pure _
    exact (within.evaluate entry.1).bind fun _ => (within.evaluate entry.2).bind fun _ => .pure _

theorem AlikeWithin.chain_succ (within : AlikeWithin kept ground functions others fuel)
    (first : Value) (operands : List (Comparison × Expr)) : Alike (Scope.Keeps kept ground)
      (evaluateChain functions (fuel + 1) first operands)
      (evaluateChain others (fuel + 1) first operands) := by
  cases operands with
  | nil =>
    rw [evaluateChain, evaluateChain]
    exact .pure _
  | cons operand operands =>
    rw [evaluateChain, evaluateChain]
    refine (within.evaluate _).bind fun value => (Alike.onLine _ _).bind fun holds => ?_
    split
    · exact within.chain value operands
    · exact .pure _

theorem AlikeWithin.args_succ (within : AlikeWithin kept ground functions others fuel)
    (args : List (Option String × Expr)) : Alike (Scope.Keeps kept ground)
      (evaluateArgs functions (fuel + 1) args) (evaluateArgs others (fuel + 1) args) := by
  rw [evaluateArgs, evaluateArgs]
  refine (Alike.mapM fun arg _ => ?_).bind fun values => ?_
  · exact (within.evaluate arg.2).bind fun _ => .pure _
  · dsimp only
    split
    · exact .pure _
    · exact .pure _

theorem AlikeWithin.renderBody_succ (within : AlikeWithin kept ground functions others fuel)
    (body : List Stmt) (unbound : kept.Disjoint (Stmt.boundNamesOfAll body)) :
    Alike (Scope.Keeps kept ground) (Eval.renderBody functions (fuel + 1) body)
      (Eval.renderBody others (fuel + 1) body) := by
  rw [Eval.renderBody, Eval.renderBody]
  refine Alike.foldlM (fun stmt listed text => ?_) ""
  exact (within.render stmt (disjoint_of_mem unbound listed)).bind fun _ => .pure _

theorem AlikeWithin.body_succ (within : AlikeWithin kept ground functions others fuel)
    (bindings : List (String × Value × Option Expr)) (body : List Stmt)
    (fresh : kept.Disjoint (bindings.map (·.1)))
    (unbound : kept.Disjoint (Stmt.boundNamesOfAll body)) :
    Alike (Scope.Keeps kept ground) (callBody functions (fuel + 1) bindings body)
      (callBody others (fuel + 1) bindings body) := by
  rw [callBody, callBody]
  refine (Alike.forM fun binding listed => ?_).bind fun _ => within.renderBody body unbound
  have other : binding.1 ∉ kept := fun member =>
    fresh member (List.mem_map_of_mem (List.mem_reverse.mp listed))
  obtain ⟨name, value, default⟩ := binding
  dsimp only
  split
  · exact (within.evaluate _).bind fun value => .modify fun _ keeps => keeps.bind other value
  · exact .modify fun _ keeps => keeps.bind other _

theorem AlikeWithin.call_succ (within : AlikeWithin kept ground functions others fuel)
    (same : ∀ scope, Scope.Keeps kept ground scope → ∀ function args,
      functions function scope.lookup args = others function scope.lookup args)
    (line : Nat) (callee : Value) (args : Args) : Alike (Scope.Keeps kept ground)
      (callValue functions (fuel + 1) line callee args)
      (callValue others (fuel + 1) line callee args) := by
  cases callee
  case builtin function =>
    rw [callValue, callValue]
    refine .get_bind fun scope keeps => ?_
    rw [same scope keeps]
    exact .onLine _ _
  case defined signature number =>
    rw [callValue, callValue]
    refine .get_bind fun scope keeps => ?_
    split
    next definition known =>
      have unbound := keeps.definitions definition (List.mem_of_getElem? known)
      rw [Definition.boundNames, List.disjoint_append_right] at unbound
      refine .onLine_bind fun bound ok => .get_bind fun outer keeps => ?_
      have fresh : kept.Disjoint (bound.map (·.1)) := fun name member listed =>
        unbound.1 member (mem_params_of_bindings ok listed)
      extract_lets outerDepth enter enter'
      -- The body runs on a frame of its own, and the frames of the caller come back after it.
      have entered : Alike (Scope.Keeps kept ground) (enter ⟨⟩) (enter' ⟨⟩) := by
        refine (Alike.set ?_).bind fun _ => ?_
        · exact keeps.withFrames (Scope.get?_emptyFrame kept) _ _
        · refine (within.body bound definition.body fresh unbound.2).bind fun text => ?_
          refine (Alike.modify fun _ after => ?_).bind fun _ => .pure _
          exact after.withFrames keeps.locals _ _
      split
      · exact (Alike.fail _ _).bind fun _ => entered
      · exact entered
    next => exact .fail _ _
  all_goals
    rw [callValue, callValue]
    · exact .fail _ _
    all_goals exact nofun

/-- A loop binds its target for each item, to choose the items and again, beside `loop`, to render
its body. -/
theorem AlikeWithin.render_loop (within : AlikeWithin kept ground functions others fuel)
    (target : Target) (range : Expr) (filter : Option Expr) (body otherwise : List Stmt)
    (unbound : kept.Disjoint (Stmt.loop target range filter body otherwise).boundNames) :
    Alike (Scope.Keeps kept ground)
      (Eval.render functions (fuel + 1) (.loop target range filter body otherwise))
      (Eval.render others (fuel + 1) (.loop target range filter body otherwise)) := by
  rw [Stmt.boundNames, List.disjoint_append_right, List.disjoint_append_right,
    List.disjoint_cons_right] at unbound
  obtain ⟨⟨loop, names⟩, inside, outside⟩ := unbound
  rw [Eval.render, Eval.render]
  refine (within.evaluate range).bind fun value => (alike_loopItems _ value).bind fun items => ?_
  refine (alike_pushFrame _).bind fun _ => ?_
  extract_lets rest rest'
  have rounds : ∀ items, Alike (Scope.Keeps kept ground) (rest items) (rest' items) := by
    intro items
    refine (Alike.foldlM (fun round _ text => ?_) "").bind fun text =>
      (Alike.modify fun _ keeps => keeps.pop).bind fun _ => ?_
    · refine (Alike.modify fun _ keeps => keeps.reset.bind loop _).bind fun _ => ?_
      refine (alike_bindTarget target round.item names).bind fun _ => ?_
      exact (within.renderBody body inside).bind fun _ => .pure _
    · split
      · exact within.renderBody otherwise outside
      · exact .pure text
  cases filter with
  | none => exact (Alike.pure items).bind rounds
  | some condition =>
    refine (Alike.filterMapM fun item _ => ?_).bind fun chosen => (Alike.pure chosen).bind rounds
    refine (Alike.modify fun _ keeps => keeps.reset).bind fun _ => ?_
    refine (alike_bindTarget target item names).bind fun _ => ?_
    exact (within.evaluate condition).bind fun _ => .pure _

theorem AlikeWithin.render_succ (within : AlikeWithin kept ground functions others fuel)
    (present : ∀ name ∈ kept, (ground.get? name).isSome) (stmt : Stmt)
    (unbound : kept.Disjoint stmt.boundNames) :
    Alike (Scope.Keeps kept ground) (Eval.render functions (fuel + 1) stmt)
      (Eval.render others (fuel + 1) stmt) := by
  cases stmt with
  | data text =>
    rw [Eval.render, Eval.render]
    exact .pure _
  | emit expr =>
    rw [Eval.render, Eval.render]
    exact (within.evaluate expr).bind fun _ => .pure _
  | conditional condition whenTrue whenFalse =>
    rw [Stmt.boundNames, List.disjoint_append_right] at unbound
    rw [Eval.render, Eval.render]
    refine (within.evaluate condition).bind fun _ => ?_
    split
    · exact within.renderBody whenTrue unbound.1
    · exact within.renderBody whenFalse unbound.2
  | loop target range filter body otherwise =>
    exact within.render_loop target range filter body otherwise unbound
  | assign target value =>
    rw [Eval.render, Eval.render]
    refine (within.evaluate value).bind fun value => ?_
    exact (alike_bindTarget target value unbound).bind fun _ => .pure _
  | capture target filters body =>
    rw [Stmt.boundNames, List.disjoint_append_right] at unbound
    rw [Eval.render, Eval.render]
    refine (within.renderBody body unbound.2).bind fun text => ?_
    refine (Alike.foldlM (fun filter _ before => ?_) _).bind fun result => ?_
    · refine (within.args _).bind fun args => ?_
      exact (Alike.onLine _ _).bind fun _ => .pure _
    · exact (alike_bindTarget target _ unbound.1).bind fun _ => .pure _
  | define name params defaults body =>
    rw [Eval.render, Eval.render]
    exact (Alike.modify fun _ keeps => keeps.define present unbound).bind fun _ => .pure _

/-- Functions that return the same wherever names keep the values of the context make no difference
to a template that does not bind these names. -/
theorem alikeWithin (present : ∀ name ∈ kept, (ground.get? name).isSome)
    (same : ∀ scope, Scope.Keeps kept ground scope → ∀ function args,
      functions function scope.lookup args = others function scope.lookup args) (fuel : Nat) :
    AlikeWithin kept ground functions others fuel := by
  induction fuel with
  | zero => exact .zero
  | succ fuel within =>
    exact ⟨within.evaluate_succ, within.chain_succ, within.args_succ, within.call_succ same,
      within.body_succ, within.renderBody_succ, within.render_succ present⟩

end

end Eval

end SqlPipeline.Template
