import SqlPipeline.Template.Scope

/-!
# Evaluating expressions and rendering statements

Evaluation threads the names in scope and stops at the first fault. It is bounded by a number of
nested steps: an expression or statement takes one step more than its parts, and a call as many as
the body of the function, so a bound on the size of the template and on the nesting of calls is
never reached. What the functions of every template return is a parameter.
-/

namespace SqlPipeline.Template

/-- What the functions of every template return for arguments, where names have the given values. -/
abbrev Functions := Builtin → (String → Option Value) → Args → Except Cause Value

/-- A computation on the names in scope. -/
abbrev Eval := StateT Scope (Except Fault)

namespace Eval

/-- How deep calls and loops may nest. -/
def depthLimit : Nat := 500

/-- Stop with a fault. -/
def fail {α : Type} (line : Nat) (cause : Cause) : Eval α := throw ⟨cause, line⟩

/-- A result whose fault lies on a line. -/
def onLine {α : Type} (line : Nat) : Except Cause α → Eval α
  | .ok value => pure value
  | .error cause => fail line cause

/-- The fault of calls or loops that nest too deep. -/
def tooDeep : Cause := .invalidOperation "recursion limit exceeded"

/-- Open a frame, unless frames nest too deep. -/
def pushFrame (line : Nat) : Eval Unit := do
  if (← get).depth > depthLimit then fail line tooDeep
  modify Scope.push

/-- The member of a value; a value that is undefined has none. -/
def memberOf (line : Nat) (value : Value) (found : Option Value) : Eval Value :=
  match value, found with
  | .undefined, _ => fail line (.undefinedValue none)
  | _, some found => pure found
  | _, none => pure .undefined

/-- The value that a target has before the assignment. -/
def present (line : Nat) : Target → Eval Value
  | .name name _ => do return ((← get).lookup name).getD .undefined
  | .list _ _ => pure .undefined
  | .member owner name => do
    let value ← present line owner
    memberOf line value (value.attribute? name)

mutual

/-- Bind the names of a target to a value, or to the parts of a value. A member of a value cannot be
bound. -/
def bindTarget : Target → Value → Eval Unit
  | .name name _, value => modify (·.bind name value)
  | .list targets line, value =>
    match value.parts? with
    | some parts =>
      if parts.length = targets.length then bindTargets targets parts
      else fail line (.invalidOperation "cannot unpack: sequence of wrong length")
    | none => fail line (.invalidOperation "cannot unpack: not a sequence")
  | .member owner _, _ => do
    let value ← present owner.line owner
    fail owner.line (.invalidOperation ("can only assign to namespaces, not " ++ value.kindText))

/-- Bind several targets to values, the first one first. -/
def bindTargets : List Target → List Value → Eval Unit
  | target :: targets, value :: values => do
    bindTarget target value
    bindTargets targets values
  | _, _ => pure ()

end

/-- A round of a loop: its item with the items around it, and how many items come before it. -/
structure Round where
  index : Nat
  previous : Value
  item : Value
  next : Value

/-- The rounds of a loop from an item on. -/
def rounds (index : Nat) (previous : Value) : List Value → List Round
  | [] => []
  | item :: items =>
    ⟨index, previous, item, items.head?.getD .undefined⟩ :: rounds (index + 1) item items

/-- What a loop of some rounds tells its body about the present round. -/
def Round.value (round : Round) (count : Nat) : Value :=
  let index := round.index
  let entries : List (String × Value) := [
    ("index0", .natural index), ("index", .natural (index + 1)),
    ("revindex0", .natural (count - index - 1)), ("revindex", .natural (count - index)),
    ("first", .bool (index = 0)), ("last", .bool (index + 1 = count)),
    ("length", .natural count), ("depth0", .natural 0), ("depth", .natural 1),
    ("previtem", round.previous), ("nextitem", round.next)]
  .map (Value.ofTextEntries (NameMap.ofList entries).entries)

/-- The values of parameters from positional and keyword arguments. -/
def paramValues (keywords : List (String × Value)) :
    List String → List Value → Except Cause (List (String × Value))
  | [], [] => .ok []
  | [], _ :: _ => .error .tooManyArguments
  | param :: params, [] => do
    let rest ← paramValues keywords params []
    .ok ((param, (keywords.lookup param).getD .undefined) :: rest)
  | param :: params, arg :: args => do
    if (keywords.lookup param).isSome then .error .tooManyArguments
    else
      let rest ← paramValues keywords params args
      .ok ((param, arg) :: rest)

/-- Arguments split into positional and keyword ones. -/
def splitKeywords (args : Args) : List Value × List (String × Value) :=
  match args.getLast? with
  | some (.keywords keywords) => (args.dropLast, keywords)
  | _ => (args, [])

/-- The values of all parameters of a function in a call, and their defaults. If the function
mentions `caller`, that is a further parameter by name. -/
def bindings (definition : Definition) (args : Args) :
    Except Cause (List (String × Value × Option Expr)) := do
  let signature := definition.signature
  let (positional, keywords) := splitKeywords args
  let values ← paramValues keywords signature.params positional
  let known := if signature.usesCaller then "caller" :: signature.params else signature.params
  if keywords.any fun keyword => !known.contains keyword.1 then
    .error .tooManyArguments
  else
    let plain := signature.params.length - definition.defaults.length
    let defaults := List.replicate plain none ++ definition.defaults.map some
    let bound := List.zipWith (fun entry default => (entry.1, entry.2, default)) values defaults
    if signature.usesCaller then
      .ok (bound ++ [("caller", (keywords.lookup "caller").getD .undefined, none)])
    else .ok bound

/-- What a loop runs through. -/
def loopItems (line : Nat) (range : Value) : Eval (List Value) :=
  match range.iterate? with
  | some items => pure items
  | none => fail line (.invalidOperation (range.kindText ++ " is not iterable"))

section

variable (functions : Functions)

mutual

/-- The value of an expression. -/
def evaluate : Nat → Expr → Eval Value
  | 0, expr => fail expr.lastLine tooDeep
  | fuel + 1, expr =>
    match expr with
    | .name name _ => do return ((← get).lookup name).getD .undefined
    | .const value _ _ => pure value
    | .not operand => do return .bool !(← evaluate fuel operand).isTrue
    | .neg operand line => do onLine line (← evaluate fuel operand).negated
    | .binary op left right => do
      let a ← evaluate fuel left
      let b ← evaluate fuel right
      onLine expr.lastLine (Value.apply op a b)
    | .chain first others => do
      let value ← evaluate fuel first
      return .bool (← evaluateChain fuel value others)
    | .both left right => do
      let a ← evaluate fuel left
      if a.isTrue then evaluate fuel right else pure a
    | .either left right => do
      let a ← evaluate fuel left
      if a.isTrue then pure a else evaluate fuel right
    | .choice condition whenTrue whenFalse => do
      if (← evaluate fuel condition).isTrue then evaluate fuel whenTrue
      else match whenFalse with
        | some whenFalse => evaluate fuel whenFalse
        | none => pure .undefined
    | .filter filter operand args => do
      let value ← evaluate fuel operand
      let args ← evaluateArgs fuel args
      onLine expr.lastLine (applyFilter filter value args)
    | .test test operand args => do
      let value ← evaluate fuel operand
      let args ← evaluateArgs fuel args
      return .bool (← onLine expr.lastLine (applyTest test value args))
    | .member operand name => do
      let value ← evaluate fuel operand
      memberOf expr.lastLine value (value.attribute? name)
    | .item operand key => do
      let value ← evaluate fuel operand
      let key ← evaluate fuel key
      memberOf expr.lastLine value (value.item? key)
    | .call (.name name _) args _ => do
      let args ← evaluateArgs fuel args
      match (← get).lookup name with
      | some callee => callValue fuel expr.lastLine callee args
      | none => fail expr.lastLine (.unknownFunction name)
    | .call (.member operand name) args _ => do
      let value ← evaluate fuel operand
      let args ← evaluateArgs fuel args
      match value.attribute? name with
      | some callee => callValue fuel expr.lastLine callee args
      | none => fail expr.lastLine (.unknownMethod name)
    | .call callee args _ => do
      let callee ← evaluate fuel callee
      let args ← evaluateArgs fuel args
      callValue fuel expr.lastLine callee args
    | .list items _ => do return .list (← items.mapM (evaluate fuel))
    | .map entries _ => do
      let entries ← entries.mapM fun (key, value) => do
        return (← evaluate fuel key, ← evaluate fuel value)
      return .map (entries.foldl (fun map entry => Value.insertEntry entry.1 entry.2 map) [])

/-- Whether all comparisons of a chain hold, from a first value on. -/
def evaluateChain : Nat → Value → List (Comparison × Expr) → Eval Bool
  | 0, _, _ => fail 0 tooDeep
  | _ + 1, _, [] => pure true
  | fuel + 1, first, (op, operand) :: others => do
    let value ← evaluate fuel operand
    if ← onLine operand.lastLine (Value.compares op first value) then
      evaluateChain fuel value others
    else pure false

/-- The values of arguments; keyword arguments become one value at the end. -/
def evaluateArgs : Nat → List (Option String × Expr) → Eval Args
  | 0, _ => pure []
  | fuel + 1, args => do
    let values ← args.mapM fun (name, arg) => do return (name, ← evaluate fuel arg)
    let positional := values.filterMap fun (name, value) => if name.isNone then some value else none
    let keywords := values.filterMap fun (name, value) => name.map (·, value)
    match keywords with
    | [] => pure positional
    | _ => pure (positional ++ [.keywords (NameMap.ofList keywords).entries])

/-- The result of calling a value. -/
def callValue : Nat → Nat → Value → Args → Eval Value
  | 0, line, _, _ => fail line tooDeep
  | fuel + 1, line, callee, args => do
    match callee with
    | .builtin function => onLine line (functions function (← get).lookup args)
    | .defined _ number =>
      match (← get).definitions[number]? with
      | some definition => do
        let bindings ← onLine line (bindings definition args)
        let outer ← get
        let outerDepth := outer.depth + 5
        if outerDepth + 1 > depthLimit then fail line tooDeep
        set { outer with
          frames := [Scope.emptyFrame]
          closure := definition.closure
          outerDepth }
        let text ← callBody fuel bindings definition.body
        modify fun scope => { scope with
          frames := outer.frames
          closure := outer.closure
          outerDepth := outer.outerDepth }
        return .string text
      | none => fail line (.invalidOperation "value is not callable")
    | _ => fail line (.invalidOperation ("value of type " ++ callee.kindText ++ " is not callable"))

/-- Bind the parameters of a function, the last one first, and render its body. -/
def callBody : Nat → List (String × Value × Option Expr) → List Stmt → Eval String
  | 0, _, _ => fail 0 tooDeep
  | fuel + 1, bindings, body => do
    bindings.reverse.forM fun (name, value, default) => do
      match value, default with
      | .undefined, some default => do
        let value ← evaluate fuel default
        modify (·.bind name value)
      | value, _ => modify (·.bind name value)
    renderBody fuel body

/-- The text of a sequence of statements. -/
def renderBody : Nat → List Stmt → Eval String
  | 0, _ => fail 0 tooDeep
  | fuel + 1, body => body.foldlM (fun text stmt => do return text ++ (← render fuel stmt)) ""

/-- The text of a statement. -/
def render : Nat → Stmt → Eval String
  | 0, _ => fail 0 tooDeep
  | fuel + 1, stmt =>
    match stmt with
    | .data text => pure text
    | .emit expr => do return (← evaluate fuel expr).text
    | .conditional condition whenTrue whenFalse => do
      if (← evaluate fuel condition).isTrue then renderBody fuel whenTrue
      else renderBody fuel whenFalse
    | .loop target range filter body otherwise => do
      let line := range.lastLine
      let items ← loopItems line (← evaluate fuel range)
      pushFrame line
      let items ← match filter with
        | none => pure items
        | some condition => do
          let kept ← items.filterMapM fun item => do
            modify Scope.reset
            bindTarget target item
            return if (← evaluate fuel condition).isTrue then some item else none
          pure kept
      let count := items.length
      let text ← (rounds 0 .undefined items).foldlM (fun text round => do
        modify fun scope => scope.reset.bind "loop" (round.value count)
        bindTarget target round.item
        return text ++ (← renderBody fuel body)) ""
      modify Scope.pop
      if items.isEmpty then renderBody fuel otherwise else pure text
    | .assign target value => do
      bindTarget target (← evaluate fuel value)
      return ""
    | .capture target filters body => do
      let text ← renderBody fuel body
      let line := (filters.head?.map (·.2.2)).getD 0
      let (value, _) ← filters.foldlM (fun (value, line) (filter, args, _) => do
        let line := Expr.lastArgLine (Expr.literalKeywords args) line args
        let args ← evaluateArgs fuel args
        return (← onLine line (applyFilter filter value args), line)) (Value.string text, line)
      bindTarget target value
      return ""
    | .define name params defaults body => do
      modify (·.define name params defaults body)
      return ""

end

end

end Eval

end SqlPipeline.Template
