import SqlPipeline.Template.Operator
import SqlPipeline.Text.Blank
import SqlPipeline.Text.Case

/-!
# Filters and tests

A filter computes a value from the value before it and from its arguments; a test tells whether a
condition holds. An argument that may be missing counts as missing when it is undefined or null.
-/

namespace SqlPipeline.Template

/-- The arguments of a call that are still to be read. -/
abbrev Args := List Value

namespace Args

/-- Read an argument that has to be there. -/
def required : Args → Except Cause (Value × Args)
  | [] => .error .missingArgument
  | value :: args => .ok (value, args)

/-- Read an argument that may be missing. -/
def optional : Args → Option Value × Args
  | [] => (none, [])
  | .undefined :: args => (none, args)
  | .null :: args => (none, args)
  | value :: args => (some value, args)

/-- Every value has a text, except keyword arguments. -/
def textOf : Value → Except Cause String
  | .keywords _ => .error (.invalidOperation "cannot convert kwargs to string")
  | value => .ok value.text

/-- Read a text that has to be there. -/
def requiredText (args : Args) : Except Cause (String × Args) := do
  let (value, args) ← args.required
  pure (← textOf value, args)

/-- Read a text that may be missing. -/
def optionalText (args : Args) : Except Cause (Option String × Args) := do
  match args.optional with
  | (some value, args) => pure (some (← textOf value), args)
  | (none, args) => pure (none, args)

/-- Read a truth value that may be missing. -/
def optionalFlag (args : Args) : Except Cause (Option Bool × Args) := do
  match args.optional with
  | (some (.bool flag), args) => pure (some flag, args)
  | (some _, _) => throw (.invalidOperation "cannot convert the value to a truth value")
  | (none, args) => pure (none, args)

/-- No argument may be left. -/
def finish : Args → Except Cause Unit
  | [] => .ok ()
  | _ :: _ => .error .tooManyArguments

end Args

/-- Replace each occurrence of a text, from the left; an empty text occurs between all
characters. -/
def replaceAll (old new : List Char) : Nat → List Char → List Char
  | 0, text => text
  | _ + 1, [] => if old.isEmpty then new else []
  | fuel + 1, c :: text =>
    if old.isEmpty then new ++ c :: replaceAll old new fuel text
    else if old.isPrefixOf (c :: text) then
      new ++ replaceAll old new fuel ((c :: text).drop old.length)
    else c :: replaceAll old new fuel text

/-- Remove the given characters from both ends. -/
def trimOf (chars text : List Char) : List Char :=
  Text.dropEndWhile chars.contains (text.dropWhile chars.contains)

namespace Value

/-- The number of characters or parts. -/
def length? : Value → Option Nat
  | string s => some s.length
  | other => other.parts?.map List.length

/-- The first character or part. -/
def first? : Value → Option Value
  | string s => some ((s.toList.head?.map fun c => string (String.singleton c)).getD undefined)
  | other => other.parts?.map fun parts => parts.head?.getD undefined

/-- The last character or item. -/
def last? : Value → Option Value
  | string s => some ((s.toList.getLast?.map fun c => string (String.singleton c)).getD undefined)
  | other => other.items?.map fun items => items.getLast?.getD undefined

/-- The items joined with a separator. -/
def joined (value : Value) (separator : String) : Except Cause Value :=
  match value with
  | undefined => .ok (string "")
  | null => .ok (string "")
  | value => match value.iterate? with
    | some items => .ok (string (separator.intercalate (items.map text)))
    | none => .error (.invalidOperation ("cannot join value of type " ++ value.kindText))

end Value

/-- The value, or the first argument if it is undefined; if the second argument holds, also if the
value itself does not hold. Without arguments an empty text takes its place. -/
def defaultFilter (value : Value) (args : Args) : Except Cause Value := do
  let (other, args) : Value × Args := match args with
    | [] => (.string "", [])
    | other :: args => (other, args)
  let (lax, args) ← args.optionalFlag
  args.finish
  let missing := match value with
    | .undefined => true
    | value => lax.getD false && !value.isTrue
  pure (if missing then other else value)

/-- The number of characters or parts. -/
def lengthFilter (value : Value) (args : Args) : Except Cause Value := do
  args.finish
  match value.length? with
  | some n => pure (.natural n)
  | none =>
    throw (.invalidOperation ("cannot calculate length of value of type " ++ value.kindText))

/-- The text with each occurrence of the first argument replaced by the second. -/
def replaceFilter (value : Value) (args : Args) : Except Cause Value := do
  let text ← Args.textOf value
  let (old, args) ← args.requiredText
  let (new, args) ← args.requiredText
  args.finish
  let chars := text.toList
  pure (.string (String.ofList (replaceAll old.toList new.toList (chars.length + 1) chars)))

/-- The text without blanks, or without the characters of the argument, at both ends. -/
def trimFilter (value : Value) (args : Args) : Except Cause Value := do
  let text ← Args.textOf value
  let (chars, args) ← args.optionalText
  args.finish
  match chars with
  | some chars => pure (.string (String.ofList (trimOf chars.toList text.toList)))
  | none => pure (.string (Text.trim text))

/-- The texts of the items, with the argument between them. -/
def joinFilter (value : Value) (args : Args) : Except Cause Value := do
  let (separator, args) ← args.optionalText
  args.finish
  value.joined (separator.getD "")

/-- A filter on texts without arguments. -/
def textFilter (f : String → String) (value : Value) (args : Args) : Except Cause Value := do
  let text ← Args.textOf value
  args.finish
  pure (.string (f text))

/-- A filter that picks an item and has no arguments. -/
def itemFilter (pick : Value → Option Value) (which : String) (value : Value) (args : Args) :
    Except Cause Value := do
  args.finish
  match pick value with
  | some item => pure item
  | none => throw (.invalidOperation ("cannot get " ++ which ++ " item from value"))

/-- Apply a filter to a value and further arguments. -/
def applyFilter (name : String) (value : Value) (args : Args) : Except Cause Value :=
  match name with
  | "upper" => textFilter Text.upper value args
  | "lower" => textFilter Text.lower value args
  | "trim" => trimFilter value args
  | "default" => defaultFilter value args
  | "d" => defaultFilter value args
  | "join" => joinFilter value args
  | "length" => lengthFilter value args
  | "count" => lengthFilter value args
  | "replace" => replaceFilter value args
  | "first" => itemFilter Value.first? "first" value args
  | "last" => itemFilter Value.last? "last" value args
  | _ => .error (.unknownFilter name)

/-- Apply a test to a value and further arguments. -/
def applyTest (name : String) (value : Value) (args : Args) : Except Cause Bool :=
  match name with
  | "defined" => args.finish.map fun _ => !(value matches .undefined)
  | "undefined" => args.finish.map fun _ => (value matches .undefined)
  | "none" => args.finish.map fun _ => (value matches .null)
  | _ => .error (.unknownTest name)

end SqlPipeline.Template
