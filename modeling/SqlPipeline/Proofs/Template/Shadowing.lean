import Mathlib.Data.List.Lattice
import SqlPipeline.NameMap
import SqlPipeline.Template.Eval

/-!
# Names that a template leaves alone

A template may bind any name, those of its context as well. A context name that no statement of it
binds keeps its value in every scope that arises: no frame binds it, and a closure that holds it
holds the value of the context.
-/

namespace SqlPipeline.Template

mutual

/-- The names that a statement may bind, with those of the statements inside it. A function binds
its parameters and `caller`, and every loop binds `loop`. -/
def Stmt.boundNames : Stmt → List String
  | .data _ => []
  | .emit _ => []
  | .conditional _ whenTrue whenFalse =>
    Stmt.boundNamesOfAll whenTrue ++ Stmt.boundNamesOfAll whenFalse
  | .loop target _ _ body otherwise =>
    "loop" :: target.names ++ (Stmt.boundNamesOfAll body ++ Stmt.boundNamesOfAll otherwise)
  | .assign target _ => target.names
  | .capture target _ body => target.names ++ Stmt.boundNamesOfAll body
  | .define name params _ body => name :: "caller" :: params ++ Stmt.boundNamesOfAll body

/-- The names that a sequence of statements may bind. -/
def Stmt.boundNamesOfAll : List Stmt → List String
  | [] => []
  | stmt :: stmts => stmt.boundNames ++ Stmt.boundNamesOfAll stmts

end

/-- The names that a call of a function may bind. -/
def Definition.boundNames (definition : Definition) : List String :=
  "caller" :: definition.signature.params ++ Stmt.boundNamesOfAll definition.body

theorem disjoint_of_mem {names : List String} {stmt : Stmt} {body : List Stmt}
    (unbound : names.Disjoint (Stmt.boundNamesOfAll body)) (listed : stmt ∈ body) :
    names.Disjoint stmt.boundNames := by
  induction body with
  | nil => cases listed
  | cons first body ih =>
    rw [Stmt.boundNamesOfAll, List.disjoint_append_right] at unbound
    rcases List.mem_cons.mp listed with rfl | later
    · exact unbound.1
    · exact ih unbound.2 later

/-- Names have no value but the one that the template is rendered with, and no function defined so
far can give them another one. -/
structure Scope.Keeps (kept : List String) (ground : NameMap Value) (scope : Scope) : Prop where
  context : scope.context = ground
  locals : ∀ frame ∈ scope.frames, ∀ name ∈ kept, frame.locals.get? name = none
  closures : ∀ names ∈ scope.closures, ∀ name ∈ kept, ∀ value,
    names.get? name = some value → ground.get? name = some value
  definitions : ∀ definition ∈ scope.definitions, kept.Disjoint definition.boundNames

namespace Scope

variable {kept : List String} {ground : NameMap Value} {scope : Scope} {name : String}
  {value : Value}

theorem get?_emptyFrame (kept : List String) :
    ∀ frame ∈ [emptyFrame], ∀ name ∈ kept, frame.locals.get? name = none :=
  List.forall_mem_singleton.mpr fun _ _ => rfl

theorem Keeps.ofContext (kept : List String) (ground : NameMap Value) :
    (Scope.ofContext ground).Keeps kept ground where
  context := rfl
  locals := get?_emptyFrame kept
  closures := fun _ member => nomatch member
  definitions := fun _ member => nomatch member

/-! ## Looking names up -/

theorem Keeps.groundLookup (keeps : scope.Keeps kept ground) (listed : name ∈ kept) :
    scope.groundLookup name = ground.get? name := by
  rw [Scope.groundLookup, keeps.context]
  cases enclosed : scope.closure.bind fun number =>
      (scope.closures[number]?).bind (·.get? name) with
  | none => rfl
  | some value =>
    obtain ⟨number, -, held⟩ := Option.bind_eq_some_iff.mp enclosed
    obtain ⟨names, there, found⟩ := Option.bind_eq_some_iff.mp held
    exact (keeps.closures names (List.mem_of_getElem? there) name listed value found).symm

/-- A name that is kept has the value of the context. -/
theorem Keeps.lookup (keeps : scope.Keeps kept ground) (listed : name ∈ kept)
    (present : (ground.get? name).isSome) : scope.lookup name = ground.get? name := by
  have unbound : scope.frames.findSome? (·.locals.get? name) = none :=
    List.findSome?_eq_none_iff.mpr fun frame member => keeps.locals frame member name listed
  obtain ⟨value, found⟩ := Option.isSome_iff_exists.mp present
  rw [Scope.lookup, unbound, keeps.groundLookup listed, found]
  rfl

/-! ## Binding names -/

theorem forall_mem_modify {α : Type} {P : α → Prop} {list : List α} {f : α → α} (number : Nat)
    (all : ∀ item ∈ list, P item) (step : ∀ item, P item → P (f item)) :
    ∀ item ∈ list.modify number f, P item := by
  intro item member
  obtain ⟨place, found⟩ := List.mem_iff_getElem?.mp member
  rw [List.getElem?_modify] at found
  obtain ⟨before, there, rfl⟩ := Option.map_eq_some_iff.mp found
  have held := all before (List.mem_of_getElem? there)
  split
  · exact step before held
  · exact held

theorem Keeps.bind (keeps : scope.Keeps kept ground) (other : name ∉ kept) (value : Value) :
    (scope.bind name value).Keeps kept ground := by
  have absent : ∀ names : NameMap Value, ∀ key ∈ kept,
      (names.insert name value).get? key = names.get? key := by
    intro names key listed
    refine NameMap.get?_insert_of_ne _ _ ?_
    rintro rfl
    exact other listed
  rw [Scope.bind]
  split
  next => exact keeps
  next frame frames shape =>
    have locals := keeps.locals
    rw [shape] at locals
    refine ⟨keeps.context, ?_, ?_, keeps.definitions⟩
    · refine List.forall_mem_cons.mpr ⟨fun key listed => ?_, (List.forall_mem_cons.mp locals).2⟩
      exact (absent _ key listed).trans (locals frame List.mem_cons_self key listed)
    · dsimp only
      split
      next number _ =>
        refine forall_mem_modify number keeps.closures fun names agree key listed held found => ?_
        rw [absent _ _ listed] at found
        exact agree key listed held found
      next => exact keeps.closures

theorem Keeps.push (keeps : scope.Keeps kept ground) : scope.push.Keeps kept ground where
  context := keeps.context
  locals := List.forall_mem_cons.mpr ⟨fun _ _ => rfl, keeps.locals⟩
  closures := keeps.closures
  definitions := keeps.definitions

theorem Keeps.pop (keeps : scope.Keeps kept ground) : scope.pop.Keeps kept ground where
  context := keeps.context
  locals := fun frame member => keeps.locals frame (List.mem_of_mem_tail member)
  closures := keeps.closures
  definitions := keeps.definitions

theorem Keeps.reset (keeps : scope.Keeps kept ground) : scope.reset.Keeps kept ground :=
  keeps.pop.push

/-- The frames may give way to others that bind no name that is kept. -/
theorem Keeps.withFrames {frames : List Frame} (keeps : scope.Keeps kept ground)
    (locals : ∀ frame ∈ frames, ∀ name ∈ kept, frame.locals.get? name = none)
    (closure : Option Nat) (outerDepth : Nat) :
    Scope.Keeps kept ground { scope with frames, closure, outerDepth } where
  context := keeps.context
  locals := locals
  closures := keeps.closures
  definitions := keeps.definitions

/-- A closure that takes in a name that is kept takes in its value in the context. -/
theorem Keeps.enclose (keeps : scope.Keeps kept ground)
    (present : ∀ name ∈ kept, (ground.get? name).isSome) (name : String) :
    (scope.enclose name).Keeps kept ground := by
  have inserted : ∀ names : NameMap Value,
      (∀ key ∈ kept, ∀ held, names.get? key = some held → ground.get? key = some held) →
      ∀ key ∈ kept, ∀ held,
        (names.insert name ((scope.lookup name).getD .undefined)).get? key = some held →
        ground.get? key = some held := by
    intro names agree key listed held found
    rw [NameMap.get?_insert] at found
    split at found
    next same =>
      subst same
      obtain ⟨value, known⟩ := Option.isSome_iff_exists.mp (present key listed)
      rw [keeps.lookup listed (present key listed), known, Option.getD_some] at found
      rw [known, found]
    next => exact agree key listed held found
  rw [Scope.enclose]
  split
  next => exact keeps
  next frame frames shape =>
    dsimp only
    split
    next number _ =>
      refine ⟨keeps.context, keeps.locals, ?_, keeps.definitions⟩
      refine forall_mem_modify number keeps.closures fun names agree => ?_
      split
      · exact agree
      · exact inserted names agree
    next =>
      have locals := keeps.locals
      rw [shape] at locals
      obtain ⟨first, others⟩ := List.forall_mem_cons.mp locals
      refine ⟨keeps.context, List.forall_mem_cons.mpr ⟨first, others⟩, ?_, keeps.definitions⟩
      refine List.forall_mem_append.mpr ⟨keeps.closures, List.forall_mem_singleton.mpr ?_⟩
      exact inserted .empty fun _ _ _ found => nomatch found

theorem Keeps.encloseAll (keeps : scope.Keeps kept ground)
    (present : ∀ name ∈ kept, (ground.get? name).isSome) (names : List String) :
    (names.foldl Scope.enclose scope).Keeps kept ground := by
  induction names generalizing scope with
  | nil => exact keeps
  | cons name names ih => exact ih (keeps.enclose present name)

theorem Keeps.addDefinition {definition : Definition} (keeps : scope.Keeps kept ground)
    (unbound : kept.Disjoint definition.boundNames) :
    Scope.Keeps kept ground { scope with definitions := scope.definitions ++ [definition] } where
  context := keeps.context
  locals := keeps.locals
  closures := keeps.closures
  definitions := List.forall_mem_append.mpr
    ⟨keeps.definitions, List.forall_mem_singleton.mpr unbound⟩

theorem Keeps.define {params : List String} {defaults : List Expr} {body : List Stmt}
    (keeps : scope.Keeps kept ground) (present : ∀ name ∈ kept, (ground.get? name).isSome)
    (unbound : kept.Disjoint (Stmt.define name params defaults body).boundNames) :
    (scope.define name params defaults body).Keeps kept ground := by
  rw [Stmt.boundNames, List.cons_append, List.disjoint_cons_right] at unbound
  refine Keeps.bind (Keeps.addDefinition (keeps.encloseAll present _) ?_) unbound.1 _
  exact unbound.2

end Scope

end SqlPipeline.Template
