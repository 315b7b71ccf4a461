import SqlPipeline.Template.Filter

/-!
# The functions of every template

`ref`, `source` and `var` look a text up in the value that the names `refs`, `sources` and `vars`
have where the function is called. `config` is read before rendering and renders to nothing.
-/

namespace SqlPipeline.Template

/-- The key of a source table among all source tables. -/
def sourceKey (source table : String) : String := source ++ "." ++ table

namespace Builtin

/-- The member of the value of a name, if both are there. -/
def member? (lookup : String → Option Value) (name key : String) : Option Value :=
  match lookup name with
  | some .undefined => none
  | some value => match value.attribute? key with
    | some .undefined => none
    | found => found
  | none => none

/-- The text that stands for a model; of two arguments the first one is its package. -/
def applyRef (lookup : String → Option Value) (args : Args) : Except Cause Value := do
  let (first, args) ← args.requiredText
  let (second, args) ← args.optionalText
  args.finish
  let model := second.getD first
  match member? lookup "refs" model with
  | some value => pure value
  | none => throw (.undefinedValue (some ("ref('" ++ model ++ "') does not match any model")))

/-- The text that stands for a source table. -/
def applySource (lookup : String → Option Value) (args : Args) : Except Cause Value := do
  let (group, args) ← args.requiredText
  let (table, args) ← args.requiredText
  args.finish
  match member? lookup "sources" (sourceKey group table) with
  | some value => pure value
  | none =>
    throw (.undefinedValue (some ("source('" ++ group ++ "', '" ++ table ++ "') is not defined")))

/-- The value of a project variable, or a default. -/
def applyVar (lookup : String → Option Value) (args : Args) : Except Cause Value := do
  let (name, args) ← args.requiredText
  let (default, args) := args.optional
  args.finish
  match member? lookup "vars" name, default with
  | some value, _ => pure value
  | none, some value => pure value
  | none, none => throw (.undefinedValue (some ("Variable '" ++ name ++ "' is not defined")))

/-- The settings of a model are keyword arguments only. -/
def applyConfig : Args → Except Cause Value
  | [] => .ok (.string "")
  | [.keywords _] => .ok (.string "")
  | _ => .error .tooManyArguments

/-- An integer with a sign and 64 bits. -/
def word (value : Value) : Except Cause Int :=
  match value.toWord? with
  | some n => .ok n
  | none => .error (.invalidOperation "cannot convert the value to an integer of 64 bits")

/-- Read an integer that may be missing. -/
def optionalWord (args : Args) : Except Cause (Option Int × Args) := do
  match args.optional with
  | (some value, args) => pure (some (← word value), args)
  | (none, args) => pure (none, args)

/-- How many integers there are from a lower bound on and before an upper bound, in steps up or
down. -/
def stepCount (lower upper step : Int) : Nat :=
  if 0 < step then ((upper - lower + step - 1) / step).toNat
  else ((lower - upper - step - 1) / -step).toNat

/-- The integers from a lower bound up to before an upper bound, or from zero if there is only one
bound, in steps. -/
def applyRange (args : Args) : Except Cause Value := do
  let (first, args) ← args.required
  let first ← word first
  let (second, args) ← optionalWord args
  let (step, args) ← optionalWord args
  args.finish
  let (lower, upper) := match second with
    | some upper => (first, upper)
    | none => (0, first)
  let step := step.getD 1
  if step = 0 then throw (.invalidOperation "cannot create range with step of 0")
  let count := stepCount lower upper step
  if count > 100000 then throw (.invalidOperation "range has too many elements")
  else pure (.iterable ((List.range count).map fun (i : Nat) => .int (lower + i * step) true))

/-- The result of a function where names have the given values. -/
def apply (function : Builtin) (lookup : String → Option Value) (args : Args) :
    Except Cause Value :=
  match function with
  | ref => applyRef lookup args
  | source => applySource lookup args
  | var => applyVar lookup args
  | config => applyConfig args
  | range => applyRange args

/-- The function with a name. -/
def named? : String → Option Builtin
  | "ref" => some ref
  | "source" => some source
  | "var" => some var
  | "config" => some config
  | "range" => some range
  | _ => none

end Builtin

end SqlPipeline.Template
