import SqlPipeline.Template.Operator

/-!
# Expressions and statements of a template

Operators between constants are computed when they are read, so that an expression keeps the line
where it begins only where a fault may be reported there. All other faults are reported on the line
of the last operand that was read before (`Expr.lastLine`).
-/

namespace SqlPipeline.Template

/-- An expression. -/
inductive Expr where
  | name (name : String) (line : Nat)
  /-- A value that is written down, or that was computed from such values. -/
  | const (value : Value) (isLiteral : Bool) (line : Nat)
  | not (operand : Expr)
  | neg (operand : Expr) (line : Nat)
  | binary (op : BinaryOp) (left right : Expr)
  /-- A chain of comparisons, each with the operand before it; the first one that does not hold
  decides. -/
  | chain (first : Expr) (others : List (Comparison × Expr))
  | both (left right : Expr)
  | either (left right : Expr)
  | choice (test whenTrue : Expr) (whenFalse : Option Expr)
  /-- A filter with its further arguments. -/
  | filter (filter : String) (operand : Expr) (args : List (Option String × Expr))
  /-- A test with its further arguments. -/
  | test (test : String) (operand : Expr) (args : List (Option String × Expr))
  | member (operand : Expr) (name : String)
  | item (operand key : Expr)
  /-- A call with positional arguments first and keyword arguments after them. -/
  | call (callee : Expr) (args : List (Option String × Expr)) (line : Nat)
  | list (items : List Expr) (line : Nat)
  | map (entries : List (Expr × Expr)) (line : Nat)

/-- What an assignment binds. -/
inductive Target where
  | name (name : String) (line : Nat)
  /-- One target for each item of a list. -/
  | list (targets : List Target) (line : Nat)
  /-- A member of what another target denotes. -/
  | member (owner : Target) (name : String)

/-- A statement. -/
inductive Stmt where
  | data (text : String)
  | emit (expr : Expr)
  | conditional (test : Expr) (whenTrue whenFalse : List Stmt)
  | loop (target : Target) (range : Expr) (filter : Option Expr) (body otherwise : List Stmt)
  | assign (target : Target) (value : Expr)
  /-- Bind a target to the rendered body, after filters with their arguments. -/
  | capture (target : Target) (filters : List (String × List (Option String × Expr) × Nat))
    (body : List Stmt)
  /-- Define a function; the last parameters have defaults. -/
  | define (name : String) (params : List String) (defaults : List Expr) (body : List Stmt)

namespace Expr

instance : Inhabited Expr := ⟨const .undefined false 0⟩

/-- The value of an expression that is known when it is read. -/
def value? : Expr → Option Value
  | const value _ _ => some value
  | _ => none

/-- The value of an expression that is written down as it is. -/
def literal? : Expr → Option Value
  | const value true _ => some value
  | _ => none

/-- Whether all arguments with a name are written down as they are. -/
def literalKeywords (args : List (Option String × Expr)) : Bool :=
  args.all fun (keyword, arg) => keyword.isNone || arg.literal?.isSome

mutual

/-- The line of the last operand that is read for an expression. Arguments with a name do not count
if all of them are written down as they are. -/
def lastLine : Expr → Nat
  | const _ _ line => line
  | name _ line => line
  | not operand => operand.lastLine
  | neg operand _ => operand.lastLine
  | binary _ _ right => right.lastLine
  | chain first others => lastChainLine first.lastLine others
  | both _ right => right.lastLine
  | either _ right => right.lastLine
  | choice _ whenTrue none => whenTrue.lastLine
  | choice _ _ (some whenFalse) => whenFalse.lastLine
  | filter _ operand args => lastArgLine (literalKeywords args) operand.lastLine args
  | test _ operand args => lastArgLine (literalKeywords args) operand.lastLine args
  | member operand _ => operand.lastLine
  | item _ key => key.lastLine
  | call (name _ _) args line => lastArgLine (literalKeywords args) line args
  | call (member operand _) args _ => lastArgLine (literalKeywords args) operand.lastLine args
  | call callee args _ => lastArgLine (literalKeywords args) callee.lastLine args
  | list items line => lastItemLine line items
  | map entries line => lastEntryLine line entries

/-- The line of the last operand of a chain. -/
def lastChainLine (line : Nat) : List (Comparison × Expr) → Nat
  | [] => line
  | (_, operand) :: others => lastChainLine operand.lastLine others

/-- The line of the last argument, or the given line if there is none. Arguments with a name, which
come last, do not count if `plainOnly` holds. -/
def lastArgLine (plainOnly : Bool) (line : Nat) : List (Option String × Expr) → Nat
  | [] => line
  | (keyword, arg) :: args =>
    lastArgLine plainOnly (if plainOnly && keyword.isSome then line else arg.lastLine) args

/-- The line of the last item, or the given line if there is none. -/
def lastItemLine (line : Nat) : List Expr → Nat
  | [] => line
  | first :: rest => lastItemLine first.lastLine rest

/-- The line of the last value, or the given line if there is none. -/
def lastEntryLine (line : Nat) : List (Expr × Expr) → Nat
  | [] => line
  | (_, value) :: entries => lastEntryLine value.lastLine entries

end

/-- An expression, or its value if that is known. -/
def orKnown (expr : Expr) (known : Option Value) (line : Nat) : Expr :=
  match known with
  | some value => const value false line
  | none => expr

/-- The opposite of a condition. -/
def ofNot (operand : Expr) (line : Nat) : Expr :=
  (not operand).orKnown (operand.value?.map fun value => .bool !value.isTrue) line

/-- A number with the opposite sign. -/
def ofNeg (operand : Expr) (line : Nat) : Expr :=
  (neg operand line).orKnown (operand.value?.bind fun value => value.negated.toOption) line

/-- An operator between two operands. -/
def ofBinary (op : BinaryOp) (left right : Expr) (line : Nat) : Expr :=
  (binary op left right).orKnown
    (do (Value.apply op (← left.value?) (← right.value?)).toOption) line

/-- Two conditions that both have to hold. Of two known values the second one is the result if both
hold, and else the result is false. -/
def ofBoth (left right : Expr) (line : Nat) : Expr :=
  (both left right).orKnown
    (do
      let a ← left.value?
      let b ← right.value?
      some (if a.isTrue && b.isTrue then b else .bool false)) line

/-- Two conditions of which one has to hold. -/
def ofEither (left right : Expr) (line : Nat) : Expr :=
  (either left right).orKnown
    (do
      let a ← left.value?
      let b ← right.value?
      some (if a.isTrue then a else b)) line

/-- The result of a chain of comparisons between values. -/
def chainResult (first : Value) : List (Comparison × Value) → Except Cause Bool
  | [] => .ok true
  | (op, value) :: others => do
    if ← Value.compares op first value then chainResult value others else .ok false

/-- A chain of comparisons. -/
def ofChain (first : Expr) (others : List (Comparison × Expr)) (line : Nat) : Expr :=
  (chain first others).orKnown
    (do
      let start ← first.value?
      let values ← others.mapM fun (op, operand) => operand.value?.map (op, ·)
      (chainResult start values).toOption.map .bool) line

/-- A list. It is known if its items are written down as they are. -/
def ofItems (items : List Expr) (line : Nat) : Expr :=
  (list items line).orKnown ((items.mapM literal?).map .list) line

/-- A map. It is known if its keys and values are written down as they are. -/
def ofEntries (entries : List (Expr × Expr)) (line : Nat) : Expr :=
  let known := entries.mapM fun (key, value) => do some (← key.literal?, ← value.literal?)
  (map entries line).orKnown
    (known.map fun entries =>
      .map (entries.foldl (fun map entry => Value.insertEntry entry.1 entry.2 map) [])) line

end Expr

/-- The line where a target begins. -/
def Target.line : Target → Nat
  | .name _ line => line
  | .list _ line => line
  | .member owner _ => owner.line

mutual

/-- The names that an assignment binds. -/
def Target.names : Target → List String
  | .name bound _ => [bound]
  | .list targets _ => Target.namesOfAll targets
  | .member _ _ => []

/-- The names that several assignments bind. -/
def Target.namesOfAll : List Target → List String
  | [] => []
  | target :: targets => target.names ++ Target.namesOfAll targets

end

mutual

/-- The names that an expression reads, apart from those in `bound`. -/
def Expr.freeNames (bound : List String) : Expr → List String
  | .name read _ => if bound.contains read then [] else [read]
  | .const _ _ _ => []
  | .not operand => operand.freeNames bound
  | .neg operand _ => operand.freeNames bound
  | .binary _ left right => left.freeNames bound ++ right.freeNames bound
  | .chain first others => first.freeNames bound ++ Expr.freeChainNames bound others
  | .both left right => left.freeNames bound ++ right.freeNames bound
  | .either left right => left.freeNames bound ++ right.freeNames bound
  | .choice condition whenTrue none =>
    condition.freeNames bound ++ whenTrue.freeNames bound
  | .choice condition whenTrue (some whenFalse) =>
    condition.freeNames bound ++ whenTrue.freeNames bound ++ whenFalse.freeNames bound
  | .filter _ operand args => operand.freeNames bound ++ Expr.freeArgNames bound args
  | .test _ operand args => operand.freeNames bound ++ Expr.freeArgNames bound args
  | .member operand _ => operand.freeNames bound
  | .item operand key => operand.freeNames bound ++ key.freeNames bound
  | .call callee args _ => callee.freeNames bound ++ Expr.freeArgNames bound args
  | .list items _ => Expr.freeItemNames bound items
  | .map entries _ => Expr.freeEntryNames bound entries

/-- The names that the further operands of a chain read. -/
def Expr.freeChainNames (bound : List String) : List (Comparison × Expr) → List String
  | [] => []
  | (_, operand) :: others => operand.freeNames bound ++ Expr.freeChainNames bound others

/-- The names that arguments read. -/
def Expr.freeArgNames (bound : List String) : List (Option String × Expr) → List String
  | [] => []
  | (_, arg) :: args => arg.freeNames bound ++ Expr.freeArgNames bound args

/-- The names that list items read. -/
def Expr.freeItemNames (bound : List String) : List Expr → List String
  | [] => []
  | first :: rest => first.freeNames bound ++ Expr.freeItemNames bound rest

/-- The names that map entries read. -/
def Expr.freeEntryNames (bound : List String) : List (Expr × Expr) → List String
  | [] => []
  | (key, value) :: entries =>
    key.freeNames bound ++ value.freeNames bound ++ Expr.freeEntryNames bound entries

end

/-- The names that the arguments of a chain of filters read. -/
def freeFilterNames (bound : List String) :
    List (String × List (Option String × Expr) × Nat) → List String
  | [] => []
  | (_, args, _) :: filters => Expr.freeArgNames bound args ++ freeFilterNames bound filters

mutual

/-- The names that a statement reads, and the names bound after it. -/
def Stmt.freeNames (bound : List String) : Stmt → List String × List String
  | .data _ => ([], bound)
  | .emit expr => (expr.freeNames bound, bound)
  | .conditional test whenTrue whenFalse =>
    let first := Stmt.freeBodyNames bound whenTrue
    let second := Stmt.freeBodyNames bound whenFalse
    (test.freeNames bound ++ first ++ second, bound)
  | .loop target range filter body otherwise =>
    let inside := "loop" :: target.names ++ bound
    let tests := match filter with
      | some test => test.freeNames inside
      | none => []
    (range.freeNames ("loop" :: bound) ++ tests ++ Stmt.freeBodyNames inside body
      ++ Stmt.freeBodyNames bound otherwise, bound)
  | .assign target value => (value.freeNames bound, target.names ++ bound)
  | .capture target filters body =>
    (freeFilterNames bound filters ++ Stmt.freeBodyNames bound body, target.names ++ bound)
  | .define name params defaults body =>
    (Expr.freeItemNames (params ++ bound) defaults ++ Stmt.freeBodyNames (params ++ bound) body,
      name :: bound)

/-- The names that a sequence of statements reads. -/
def Stmt.freeBodyNames (bound : List String) : List Stmt → List String
  | [] => []
  | stmt :: stmts =>
    let (names, bound) := stmt.freeNames bound
    names ++ Stmt.freeBodyNames bound stmts

end

end SqlPipeline.Template
