import SqlPipeline.Model.Project

/-!
# Selecting models

A selector names a model, or all of them by a star. A plus sign before the name adds the models that
it depends on, one after the name those that depend on it.
-/

namespace SqlPipeline

/-- What a selector says. -/
structure Selector where
  name : String
  /-- Whether the models are added that the model depends on. -/
  ancestors : Bool
  /-- Whether the models are added that depend on the model. -/
  descendants : Bool
deriving DecidableEq, Repr

/-- Why a selector selects nothing. -/
inductive SelectError where
  | empty (raw : String)
  | noMatch (name : String)
deriving DecidableEq, Repr

/-- What is wrong, in words. -/
def SelectError.message : SelectError → String
  | empty raw => "Empty selector: '" ++ raw ++ "'"
  | noMatch name => "No model matches selector '" ++ name ++ "'"

namespace Selector

/-- Read a selector. -/
def parse (raw : String) : Except SelectError Selector :=
  let trimmed := Text.trimChars raw.toList
  let ancestors := trimmed.head? = some '+'
  let rest := if ancestors then trimmed.drop 1 else trimmed
  let descendants := rest.getLast? = some '+'
  let name := if descendants then rest.dropLast else rest
  if name.isEmpty then .error (.empty raw) else .ok ⟨String.ofList name, ancestors, descendants⟩

/-- The ids of the models that a selector selects. -/
def resolve (selector : Selector) (project : Project) : Except SelectError NameSet :=
  if selector.name = "*" then .ok (.ofList project.models.keys)
  else match project.find? selector.name with
    | none => .error (.noMatch selector.name)
    | some model =>
      let above := if selector.ancestors then project.graph.ancestors model.id else []
      let below := if selector.descendants then project.graph.descendants model.id else []
      .ok (.ofList (model.id :: above ++ below))

/-- The ids of the models that any of several selectors selects. -/
def resolveAll (project : Project) : List String → Except SelectError NameSet
  | [] => .ok .empty
  | raw :: raws => do
    let selector ← parse raw
    let first ← selector.resolve project
    let rest ← resolveAll project raws
    .ok (first.union rest)

end Selector

/-- The ids of the models that are selected, or of all if there is no selector, without those that
are excluded. -/
def Project.select (project : Project) (select exclude : List String) :
    Except SelectError NameSet := do
  let selected ← if select.isEmpty then .ok (.ofList project.models.keys)
    else Selector.resolveAll project select
  let excluded ← Selector.resolveAll project exclude
  .ok (selected.diff excluded)

end SqlPipeline
