import SqlPipeline.Template.Fault
import SqlPipeline.Template.Value
import SqlPipeline.Text.Search

/-!
# Operators between template values

Arithmetic applies to numbers and truth values: between integers it is exact, and a result of more
than 128 bits is a fault; with a floating-point operand, and always for `/`, it is floating-point.
`+` also joins two texts or two lists, and `*` repeats a text or list. Any two values can be
compared, but only a text, a list or a map can be asked what it contains.
-/

namespace SqlPipeline.Template

/-- Operators that compute a value from two others. -/
inductive BinaryOp where
  | add
  | sub
  | mul
  | div
  | floorDiv
  | rem
  | concat
deriving DecidableEq, Repr

/-- Operators that compare two values. -/
inductive Comparison where
  | equal
  | notEqual
  | less
  | lessEqual
  | greater
  | greaterEqual
  | contained
  | notContained
deriving DecidableEq, Repr

namespace Value

/-- The word for the kind of a value. -/
def kindText : Value → String
  | undefined => "undefined"
  | null => "none"
  | bool _ => "bool"
  | int _ _ => "number"
  | real _ => "number"
  | string _ => "string"
  | list _ => "sequence"
  | iterable _ => "iterator"
  | map _ => "map"
  | keywords _ => "map"
  | builtin _ => "plain object"
  | defined _ _ => "plain object"

/-- The fault of an operator between kinds that it does not apply to. -/
def inapplicable (symbol : String) (a b : Value) : Cause :=
  .invalidOperation ("tried to use " ++ symbol ++ " operator on unsupported types "
    ++ a.kindText ++ " and " ++ b.kindText)

/-- The fault of an operator without a result for its operands. -/
def failed (symbol : String) (a b : Value) : Cause :=
  .invalidOperation ("unable to calculate " ++ a.text ++ " " ++ symbol ++ " " ++ b.text)

/-- The integers of two values that are no floating-point numbers, as far as they fit. Two integers
of 128 bits without a sign are taken for integers with one. -/
def ints? : Value → Value → Option (Int × Int)
  | int m false, int n false =>
    if Nat.pow 2 64 ≤ m ∧ Nat.pow 2 64 ≤ n then
      some (m.bmod (Nat.pow 2 128), n.bmod (Nat.pow 2 128))
    else if intFits m && intFits n then some (m, n) else none
  | real _, _ => none
  | _, real _ => none
  | a, b => do some (← a.toInt?.filter intFits, ← b.toInt?.filter intFits)

/-- Two operands brought to a common kind. -/
inductive Operands where
  | ints (first second : Int)
  | reals (first second : Binary64)

/-- The operands of an arithmetic operator, as floating-point numbers if one of them is one. -/
def operands? (a b : Value) : Option Operands :=
  match a, b with
  | real x, b => b.toReal?.map (.reals x)
  | a, real y => a.toReal?.map (.reals · y)
  | a, b => (ints? a b).map fun (m, n) => .ints m n

/-- An arithmetic operator: what it does with integers, if that has a result, and with
floating-point numbers. The result for integers has to fit. -/
def arithmetic (symbol : String) (a b : Value) (onInts : Int → Int → Option Int)
    (onReals : Binary64 → Binary64 → Binary64) : Except Cause Value :=
  match operands? a b with
  | some (.ints m n) => match onInts m n with
    | some result =>
      if intFits result then .ok (int result true) else .error (failed symbol a b)
    | none => .error (failed symbol a b)
  | some (.reals x y) => .ok (real (onReals x y))
  | none => .error (inapplicable symbol a b)

/-- Round toward zero. -/
def truncate (x : Binary64) : Binary64 :=
  match x.compare? (Binary64.ofInt 0) with
  | some .lt => x.neg.floor.neg
  | _ => x.floor

/-- The quotient that leaves a remainder that is not negative. -/
def realFloorDiv (x y : Binary64) : Binary64 :=
  let quotient := truncate (x.div y)
  let one := Binary64.ofInt 1
  if (x.rem y).compare? (Binary64.ofInt 0) = some .lt then
    if y.compare? (Binary64.ofInt 0) = some .gt then quotient.sub one else quotient.add one
  else quotient

/-- How often a value says that something is repeated. -/
def repetitions (value : Value) : Except Cause Nat :=
  match value.toWord? with
  | some n =>
    if 0 ≤ n then .ok n.toNat
    else .error (.invalidOperation "texts and lists can only be multiplied with integers")
  | none => .error (.invalidOperation "texts and lists can only be multiplied with integers")

/-- A list some times over; nothing is nothing however often it is taken. -/
def repeatItems {α : Type} (n : Nat) (items : List α) : List α :=
  if items.isEmpty then [] else (List.replicate n items).flatten

/-- The product of two values, one of which may be a text or a list to be repeated. -/
def times (a b : Value) : Except Cause Value :=
  match a, b with
  | string s, n => do
    .ok (string (String.ofList (repeatItems (← n.repetitions) s.toList)))
  | n, string s => do
    .ok (string (String.ofList (repeatItems (← n.repetitions) s.toList)))
  | a, b => match a.items?, b.items? with
    | some items, _ => do .ok (iterable (repeatItems (← b.repetitions) items))
    | none, some items => do .ok (iterable (repeatItems (← a.repetitions) items))
    | none, none => arithmetic "*" a b (fun m n => some (m * n)) Binary64.mul

/-- The sum of two values, or two texts or lists joined. -/
def plus (a b : Value) : Except Cause Value :=
  match a, b with
  | string s, string t => .ok (string (s ++ t))
  | a, b => match a.items?, b.items? with
    | some first, some second => .ok (iterable (first ++ second))
    | _, _ => arithmetic "+" a b (fun m n => some (m + n)) Binary64.add

/-- The result of an operator. -/
def apply (op : BinaryOp) (a b : Value) : Except Cause Value :=
  match op with
  | .add => plus a b
  | .sub => arithmetic "-" a b (fun m n => some (m - n)) Binary64.sub
  | .mul => times a b
  | .div => match a.toReal?, b.toReal? with
    | some x, some y => .ok (real (x.div y))
    | _, _ => .error (inapplicable "/" a b)
  | .floorDiv =>
    arithmetic "//" a b (fun m n => if n = 0 then none else some (m / n)) realFloorDiv
  | .rem => arithmetic "%" a b (fun m n => if n = 0 then none else some (m % n)) Binary64.rem
  | .concat => .ok (string (a.text ++ b.text))

/-- Whether a value is contained in a text, a list or the keys of a map. -/
def containedIn (value container : Value) : Except Cause Bool :=
  match container with
  | undefined => .ok false
  | string s => .ok (Text.occursIn value.text.toList s.toList)
  | list items => .ok (items.any (equal · value))
  | iterable items => .ok (items.any (equal · value))
  | builtin _ => .ok false
  | defined _ _ => .ok false
  | other => match other.entries? with
    | some entries => .ok (lookupEntry value entries).isSome
    | none => .error (.invalidOperation "cannot perform a containment check on this value")

/-- Whether two values compare as an operator says. -/
def compares (op : Comparison) (a b : Value) : Except Cause Bool :=
  match op with
  | .equal => .ok (equal a b)
  | .notEqual => .ok (!equal a b)
  | .less => .ok (order a b == .lt)
  | .lessEqual => .ok (order a b != .gt)
  | .greater => .ok (order a b == .gt)
  | .greaterEqual => .ok (order a b != .lt)
  | .contained => containedIn a b
  | .notContained => (containedIn a b).map (!·)

/-- The number with the opposite sign. The one integer without a sign whose opposite is the least
integer with one stays as it is. -/
def negated (value : Value) : Except Cause Value :=
  match value with
  | int n signed =>
    if !signed && n == Nat.pow 2 127 then .ok value
    else if intFits n && intFits (-n) then .ok (int (-n) true)
    else .error (failed "-" (natural 0) value)
  | real x => .ok (real x.neg)
  | _ => .error (.invalidOperation "invalid operation")

end Value

end SqlPipeline.Template
