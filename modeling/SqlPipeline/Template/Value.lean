import SqlPipeline.Json.Value
import SqlPipeline.Number.Decimal
import SqlPipeline.Text.Quoted

/-!
# Template values

What template expressions evaluate to. Numbers of both kinds and truth values are equal if their
numbers are; in the order of values the kind comes first, so truth values precede numbers. Maps are
kept in ascending order of their keys, and a value inside a list or map is shown with its strings in
quotes.
-/

namespace SqlPipeline.Template

/-- The functions that every template may call. -/
inductive Builtin where
  /-- The text that stands for a model. -/
  | ref
  /-- The text that stands for a source table. -/
  | source
  /-- The value of a project variable. -/
  | var
  /-- The settings of the model, which render to nothing. -/
  | config
  /-- The integers from one bound to another in equal steps. -/
  | range
deriving DecidableEq, Repr

/-- What a function that a template defines tells about itself. -/
structure Signature where
  name : String
  params : List String
  /-- Whether the body mentions `caller`, which is then a parameter by name only. -/
  usesCaller : Bool
deriving DecidableEq, Repr

/-- A value of the template language. -/
inductive Value where
  /-- What a missing name or member denotes. -/
  | undefined
  | null
  | bool (value : Bool)
  /-- An integer. One that is written down or counted has no sign bit, the result of arithmetic has
  one; either kind has 64 bits if they suffice and else 128. -/
  | int (value : Int) (signed : Bool)
  | real (value : Binary64)
  | string (value : String)
  | list (items : List Value)
  /-- Items that are computed on demand: a range, or lists that are joined or repeated. -/
  | iterable (items : List Value)
  /-- Entries ascend by key. -/
  | map (entries : List (Value × Value))
  /-- The keyword arguments of a call. -/
  | keywords (entries : List (String × Value))
  | builtin (function : Builtin)
  /-- A function that the template defines, by its number. -/
  | defined (signature : Signature) (number : Nat)

namespace Value

instance : Inhabited Value := ⟨undefined⟩

/-- An integer that is counted or written down. -/
def natural (n : Nat) : Value := int n false

/-- Integers with a sign have 128 bits. -/
def intFits (n : Int) : Bool := -(Nat.pow 2 127 : Int) ≤ n && n < Nat.pow 2 127

/-- Entries of a map with text keys. -/
def ofTextEntries (entries : List (String × Value)) : List (Value × Value) :=
  entries.map fun entry => (string entry.1, entry.2)

/-- The place of a kind in the order of values. -/
def kindRank : Value → Nat
  | undefined => 0
  | null => 1
  | bool _ => 2
  | int _ _ => 3
  | real _ => 3
  | string _ => 4
  | list _ => 5
  | map _ => 6
  | keywords _ => 6
  | iterable _ => 7
  | builtin _ => 8
  | defined _ _ => 8

/-- A floating-point number as an integer with a sign and 64 bits, if it is integral. The least
number beyond them counts as the greatest one within. -/
def wordOfReal? (x : Binary64) : Option Int :=
  x.toInt?.bind fun n =>
    if n = Nat.pow 2 63 then some (Nat.pow 2 63 - 1)
    else if -(Nat.pow 2 63 : Int) ≤ n ∧ n < Nat.pow 2 63 then some n
    else none

/-- The integer for a number or truth value. -/
def toInt? : Value → Option Int
  | bool b => some (if b then 1 else 0)
  | int n _ => some n
  | real x => wordOfReal? x
  | _ => none

/-- The integer for a number or truth value, if it has a sign and 64 bits. -/
def toWord? (value : Value) : Option Int :=
  value.toInt?.filter fun n => -(Nat.pow 2 63 : Int) ≤ n ∧ n < Nat.pow 2 63

/-- The greatest integer that is held as a given one is. -/
def greatestAs (n : Int) (signed : Bool) : Int :=
  if signed then
    if -(Nat.pow 2 63 : Int) ≤ n ∧ n < Nat.pow 2 63 then Nat.pow 2 63 - 1 else Nat.pow 2 127 - 1
  else if n < Nat.pow 2 64 then Nat.pow 2 64 - 1
  else Nat.pow 2 128 - 1

/-- The floating-point number nearest to a number or truth value. -/
def toReal? : Value → Option Binary64
  | bool b => some (Binary64.ofInt (if b then 1 else 0))
  | int n _ => some (Binary64.ofInt n)
  | real x => some x
  | _ => none

/-- The floating-point number for an integer, if going there and back leads to the same integer. On
the way back the integer is bounded by the greatest one that is held as it is. -/
def exactReal? (n : Int) (signed : Bool) : Option Binary64 :=
  let x := Binary64.ofInt n
  if x.toInt? = some n ∨ n = greatestAs n signed then some x else none

/-- The order of floating-point numbers; the result of an undefined operation comes first. -/
def orderReals (x y : Binary64) : Ordering :=
  match x.compare? y with
  | some order => order
  | none => match x, y with
    | .notANumber, .notANumber => .eq
    | .notANumber, _ => .lt
    | _, _ => .gt

/-- The order of an integer and a floating-point number. -/
def orderIntReal (n : Int) (signed : Bool) (y : Binary64) : Ordering :=
  match exactReal? n signed with
  | some x => orderReals x y
  | none => match y with
    | .notANumber => .gt
    | .infinite negative => if negative then .gt else .lt
    | .finite negative magnitude =>
      compare (n * Nat.pow 2 1074) (Binary64.signedUnits negative magnitude)

/-- The order of two values that are no collections; different kinds are ordered by kind. -/
def orderSimple : Value → Value → Ordering
  | bool a, bool b => compare a b
  | int m _, int n _ => compare m n
  | real x, real y => orderReals x y
  | int m signed, real y => orderIntReal m signed y
  | real x, int n signed => (orderIntReal n signed x).swap
  | string a, string b => compare a b
  | a, b => compare a.kindRank b.kindRank

mutual

/-- The order of two values; lists and maps compare item by item. -/
def order : Value → Value → Ordering
  | list a, list b => orderItems a b
  | iterable a, iterable b => orderItems a b
  | map a, map b => orderEntries a b
  | a, b => orderSimple a b

/-- The order of two lists. -/
def orderItems : List Value → List Value → Ordering
  | [], [] => .eq
  | [], _ :: _ => .lt
  | _ :: _, [] => .gt
  | a :: as, b :: bs => (order a b).then (orderItems as bs)

/-- The order of two lists of entries. -/
def orderEntries : List (Value × Value) → List (Value × Value) → Ordering
  | [], [] => .eq
  | [], _ :: _ => .lt
  | _ :: _, [] => .gt
  | (key, a) :: as, (other, b) :: bs =>
    ((order key other).then (order a b)).then (orderEntries as bs)

end

/-- The value at a key of a map. -/
def lookupEntry (key : Value) : List (Value × Value) → Option Value
  | [] => none
  | (other, value) :: entries =>
    if order key other == .eq then some value else lookupEntry key entries

/-- Whether two floating-point numbers are equal; the result of an undefined operation equals
nothing. -/
def equalReals (x y : Binary64) : Bool := x.compare? y == some .eq

/-- Whether two values that are no collections are equal. Truth values count as numbers. -/
def equalSimple : Value → Value → Bool
  | undefined, undefined => true
  | null, null => true
  | string a, string b => a == b
  | real x, real y => equalReals x y
  | real x, int n signed => (exactReal? n signed).any (equalReals x)
  | int n signed, real x => (exactReal? n signed).any (equalReals x)
  | real x, bool b => equalReals x (Binary64.ofInt (if b then 1 else 0))
  | bool b, real x => equalReals x (Binary64.ofInt (if b then 1 else 0))
  | builtin f, builtin g => f == g
  | defined _ m, defined _ n => m == n
  | bool a, b => b.toInt? == some (if a then 1 else 0)
  | int n _, b => b.toInt? == some n
  | _, _ => false

mutual

/-- Whether two values are equal. Lists are if their items are, computed on demand or not, and maps
if they have the same keys with equal values. -/
def equal : Value → Value → Bool
  | list a, list b => equalItems a b
  | list a, iterable b => equalItems a b
  | iterable a, list b => equalItems a b
  | iterable a, iterable b => equalItems a b
  | map a, map b => a.length == b.length && entriesWithin a b
  | a, b => equalSimple a b

/-- Whether two lists have equal items. -/
def equalItems : List Value → List Value → Bool
  | [], [] => true
  | a :: as, b :: bs => equal a b && equalItems as bs
  | _, _ => false

/-- Whether each entry of a map has an equal value in another map. -/
def entriesWithin : List (Value × Value) → List (Value × Value) → Bool
  | [], _ => true
  | (key, a) :: entries, others =>
    (match lookupEntry key others with
      | some b => equal a b
      | none => false) && entriesWithin entries others

end

/-- Put a value at a key of ascending entries, replacing an earlier value of that key. -/
def insertEntry (key value : Value) : List (Value × Value) → List (Value × Value)
  | [] => [(key, value)]
  | (other, old) :: entries =>
    match order key other with
    | .lt => (key, value) :: (other, old) :: entries
    | .eq => (other, value) :: entries
    | .gt => (other, old) :: insertEntry key value entries

/-- Whether a condition on the value holds: it is neither missing, null, zero nor empty. -/
def isTrue : Value → Bool
  | undefined => false
  | null => false
  | bool b => b
  | int n _ => n != 0
  | real x => !x.isZero
  | string s => !s.isEmpty
  | list items => !items.isEmpty
  | iterable items => !items.isEmpty
  | map entries => !entries.isEmpty
  | keywords entries => !entries.isEmpty
  | builtin _ => true
  | defined _ _ => true

/-- A number shown on its own has a point and never an exponent. -/
def plainLayout : FloatLayout := ⟨-400, 400, false⟩

/-- A number shown inside a list or map has an exponent below `1e-4` and from `1e16` on. -/
def innerLayout : FloatLayout := ⟨-4, 15, false⟩

/-- The text of an integer. -/
def intText (n : Int) : String :=
  String.ofList ((if n < 0 then ['-'] else []) ++ decimalDigits n.natAbs)

/-- The text of a truth value. -/
def boolText (b : Bool) : String := if b then "True" else "False"

/-- The name of a function. -/
def builtinName : Builtin → String
  | .ref => "ref"
  | .source => "source"
  | .var => "var"
  | .config => "config"
  | .range => "range"

mutual

/-- How a value is shown inside a list or map. -/
def inner : Value → String
  | undefined => "undefined"
  | null => "None"
  | bool b => boolText b
  | int n _ => intText n
  | real x => String.ofList (innerLayout.text x)
  | string s => Text.quote s
  | list items => "[" ++ ", ".intercalate (innerItems items) ++ "]"
  | iterable items => "[" ++ ", ".intercalate (innerItems items) ++ "]"
  | map entries => "\x7b" ++ ", ".intercalate (innerEntries entries) ++ "\x7d"
  | keywords entries => "\x7b" ++ ", ".intercalate (innerKeywords entries) ++ "\x7d"
  | builtin f => builtinName f
  | defined signature _ => "<macro " ++ signature.name ++ ">"

/-- The items of a list as they are shown. -/
def innerItems : List Value → List String
  | [] => []
  | item :: items => inner item :: innerItems items

/-- The entries of a map as they are shown. -/
def innerEntries : List (Value × Value) → List String
  | [] => []
  | (key, value) :: entries => (inner key ++ ": " ++ inner value) :: innerEntries entries

/-- The entries of keyword arguments as they are shown. -/
def innerKeywords : List (String × Value) → List String
  | [] => []
  | (key, value) :: entries => (Text.quote key ++ ": " ++ inner value) :: innerKeywords entries

end

/-- The text of a value in the rendered template. -/
def text : Value → String
  | undefined => ""
  | string s => s
  | real x => String.ofList (plainLayout.text x)
  | value => inner value

mutual

/-- The template value of a JSON value. -/
def ofJson : Json → Value
  | .null => null
  | .bool b => bool b
  | .number (.integer n) => int n (n < 0)
  | .number (.real x) => if x.isFinite then real x else null
  | .string s => string s
  | .array items => list (ofJsonItems items)
  | .object members => map (ofJsonMembers members)

/-- The template values of a list of JSON values. -/
def ofJsonItems : List Json → List Value
  | [] => []
  | item :: items => ofJson item :: ofJsonItems items

/-- The map entries of the members of a JSON object. -/
def ofJsonMembers : List (String × Json) → List (Value × Value)
  | [] => []
  | (key, value) :: members => (string key, ofJson value) :: ofJsonMembers members

end

/-- The entries of a map or of keyword arguments. -/
def entries? : Value → Option (List (Value × Value))
  | map entries => some entries
  | keywords entries => some (ofTextEntries entries)
  | _ => none

/-- The items of a list, computed on demand or not. -/
def items? : Value → Option (List Value)
  | list items => some items
  | iterable items => some items
  | _ => none

/-- The position that an index denotes, counted from the end if it is negative. -/
def position? (length : Nat) (key : Value) : Option Nat :=
  key.toWord?.bind fun n =>
    if 0 ≤ n then some n.toNat else if n.natAbs ≤ length then some (length - n.natAbs) else none

/-- The member of a function with a name. -/
def signatureMember? (signature : Signature) : Value → Option Value
  | string "name" => some (string signature.name)
  | string "arguments" => some (list (signature.params.map string))
  | string "caller" => some (bool signature.usesCaller)
  | _ => none

/-- The names of the members of a function. -/
def signatureMembers : List Value := ["name", "arguments", "caller"].map string

/-- The member of a value at a key, if it has one. -/
def item? (value key : Value) : Option Value :=
  match value with
  | list items => (position? items.length key).bind (items[·]?)
  | iterable items => (position? items.length key).bind (items[·]?)
  | string s =>
    let chars := s.toList
    (position? chars.length key).bind fun i => (chars[i]?).map fun c => string (String.singleton c)
  | defined signature _ => signatureMember? signature key
  | other => other.entries?.bind (lookupEntry key)

/-- The member of a value with a name, if it has one. -/
def attribute? (value : Value) (name : String) : Option Value :=
  match value with
  | defined signature _ => signatureMember? signature (string name)
  | other => other.entries?.bind (lookupEntry (string name))

/-- The parts of a value that has any: the items of a list, the keys of a map or the names of the
members of a function. -/
def parts? : Value → Option (List Value)
  | list items => some items
  | iterable items => some items
  | defined _ _ => some signatureMembers
  | other => other.entries?.map (·.map (·.1))

/-- What a loop over the value runs through: its characters or its other parts. -/
def iterate? : Value → Option (List Value)
  | undefined => some []
  | null => some []
  | string s => some (s.toList.map fun c => string (String.singleton c))
  | other => other.parts?

end Value

end SqlPipeline.Template
