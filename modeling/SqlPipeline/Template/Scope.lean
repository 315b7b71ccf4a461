import SqlPipeline.NameMap
import SqlPipeline.Template.Builtin
import SqlPipeline.Template.Expr

/-!
# Names in scope

Every round of a loop and every call of a function opens a frame of names, and an assignment binds
its name in the innermost frame. A function that a template defines sees the names that it mentions
through a closure, which the frame of the definition keeps up to date. Names that no frame binds are
looked up in the closure of the function that is called, then among the names that the template is
rendered with, and then among the functions of every template.
-/

namespace SqlPipeline.Template

/-- The names bound at one level of nesting. -/
structure Frame where
  locals : NameMap Value
  /-- The closure of the functions defined at this level, by its number. -/
  closure : Option Nat

/-- A function that a template defines. -/
structure Definition where
  signature : Signature
  /-- The defaults of the last parameters. -/
  defaults : List Expr
  body : List Stmt
  closure : Option Nat

/-- The names in scope, and the functions defined so far. -/
structure Scope where
  /-- The innermost frame comes first. -/
  frames : List Frame
  /-- The closure of the function that is called, by its number. -/
  closure : Option Nat
  /-- The names that the template is rendered with. -/
  context : NameMap Value
  /-- How deep the calls around this one are nested. -/
  outerDepth : Nat
  closures : List (NameMap Value)
  definitions : List Definition

namespace Scope

/-- A frame that binds nothing. -/
def emptyFrame : Frame := ⟨.empty, none⟩

/-- The scope at the start of a template. -/
def ofContext (names : NameMap Value) : Scope := ⟨[emptyFrame], none, names, 0, [], []⟩

/-- How deep the scope is nested. -/
def depth (scope : Scope) : Nat := scope.outerDepth + scope.frames.length

/-- The value of a name below the frames. -/
def groundLookup (scope : Scope) (name : String) : Option Value :=
  (scope.closure.bind fun number => (scope.closures[number]?).bind (·.get? name)).or
    (scope.context.get? name)

/-- The value of a name: of the innermost frame that binds it, then below the frames, then the
function of that name. -/
def lookup (scope : Scope) (name : String) : Option Value :=
  (scope.frames.findSome? (·.locals.get? name)).or
    ((scope.groundLookup name).or ((Builtin.named? name).map .builtin))

/-- Bind a name in the innermost frame and in its closure. -/
def bind (scope : Scope) (name : String) (value : Value) : Scope :=
  match scope.frames with
  | [] => scope
  | frame :: frames =>
    let closures := match frame.closure with
      | some number => scope.closures.modify number (·.insert name value)
      | none => scope.closures
    { scope with
      frames := ⟨frame.locals.insert name value, frame.closure⟩ :: frames
      closures }

/-- Open a frame. -/
def push (scope : Scope) : Scope := { scope with frames := emptyFrame :: scope.frames }

/-- Close the innermost frame. -/
def pop (scope : Scope) : Scope := { scope with frames := scope.frames.tail }

/-- Forget the names that the innermost frame binds. -/
def reset (scope : Scope) : Scope := scope.pop.push

/-- Give a name its present value in the closure of the innermost frame, unless it has one
there. -/
def enclose (scope : Scope) (name : String) : Scope :=
  match scope.frames with
  | [] => scope
  | frame :: frames =>
    let value := (scope.lookup name).getD .undefined
    match frame.closure with
    | some number =>
      { scope with
        closures := scope.closures.modify number fun names =>
          if names.contains name then names else names.insert name value }
    | none =>
      { scope with
        frames := ⟨frame.locals, some scope.closures.length⟩ :: frames
        closures := scope.closures ++ [NameMap.empty.insert name value] }

/-- Define a function in the innermost frame. The names that it mentions are enclosed, except
`caller`, which is a parameter by name. -/
def define (scope : Scope) (name : String) (params : List String) (defaults : List Expr)
    (body : List Stmt) : Scope :=
  let free := (Stmt.freeNames [] (.define name params defaults body)).1
  let scope := (free.filter (· ≠ "caller")).foldl enclose scope
  let signature := ⟨name, params, free.contains "caller"⟩
  let definition := ⟨signature, defaults, body, scope.frames.head?.bind (·.closure)⟩
  let number := scope.definitions.length
  { scope with definitions := scope.definitions ++ [definition] }.bind name
    (.defined signature number)

end Scope

end SqlPipeline.Template
