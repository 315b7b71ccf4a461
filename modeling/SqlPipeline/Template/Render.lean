import SqlPipeline.Template.Context
import SqlPipeline.Template.Eval
import SqlPipeline.Template.Parser
import SqlPipeline.Text.Search

/-!
# Rendering a model

A model without template marks is its own rendering. Otherwise it is read as a template and rendered
with its context; the first fault is reported with the path of the model and the line.
-/

namespace SqlPipeline.Template

/-- Why a model cannot be rendered, and where. -/
structure RenderError where
  fault : Fault
  path : Option String
deriving DecidableEq, Repr

namespace RenderError

/-- Where the fault lies. -/
def location (error : RenderError) : String :=
  match error.path with
  | some path => " in " ++ path ++ ":" ++ toString error.fault.line
  | none => " at line " ++ toString error.fault.line

/-- What comes before the description of the fault. -/
def heading (error : RenderError) : String :=
  (if error.fault.isUndefined then "Undefined" else "Render error") ++ error.location ++ ": "

/-- What is wrong and where. -/
def message (error : RenderError) : String := error.heading ++ error.fault.message

end RenderError

/-- Whether a text has the mark of an expression, a statement or a comment. -/
def hasTemplate (text : String) : Bool :=
  [['\x7b', '\x7b'], ['\x7b', '%'], ['\x7b', '#']].any (Text.occursIn · text.toList)

/-- The nesting of steps that suffices for a template of a length. -/
def stepLimit (length : Nat) : Nat := 200 * (4 * length + 8)

/-- The text of a template. -/
def renderTemplate (functions : Functions) (source : String) (names : NameMap Value) :
    Except Fault String := do
  let body ← parse source
  let (text, _) ← (Eval.renderBody functions (stepLimit source.length) body).run (.ofContext names)
  pure text

/-- The text of a model, and whether it has template marks. -/
structure Rendered where
  text : String
  hadTemplate : Bool
deriving DecidableEq, Repr

/-- Render the text of a model. -/
def renderModel (text : String) (context : RenderContext) (path : Option String) :
    Except RenderError Rendered :=
  if hasTemplate text then
    match renderTemplate Builtin.apply text context.names with
    | .ok rendered => .ok ⟨rendered, true⟩
    | .error fault => .error ⟨fault, path⟩
  else .ok ⟨text, false⟩

end SqlPipeline.Template
