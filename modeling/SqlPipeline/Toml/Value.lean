import SqlPipeline.Json.Value

/-!
# TOML values

A TOML document is a table. Its values are those of JSON without null, where integers have 64 bits
and a sign, and besides them dates and times.
-/

namespace SqlPipeline

/-- A TOML value. -/
inductive Toml where
  | string (value : String)
  | integer (value : Int)
  | real (value : Binary64)
  | boolean (value : Bool)
  /-- A date, a time, or both, in normal form. -/
  | moment (text : String)
  | array (items : List Toml)
  | table (entries : List (String × Toml))

namespace Toml

instance : Inhabited Toml := ⟨table []⟩

/-- The member under which a date or time is kept in JSON. -/
def momentKey : String := "$__toml_private_datetime"

mutual

/-- The JSON value of a TOML value. -/
def toJson : Toml → Json
  | string value => .string value
  | integer value => .int value
  | real value => .number (.real value)
  | boolean value => .bool value
  | moment text => .object [(momentKey, .string text)]
  | array items => .array (toJsonItems items)
  | table entries => .object (toJsonMembers entries)

/-- The JSON values of a list of items. -/
def toJsonItems : List Toml → List Json
  | [] => []
  | item :: items => item.toJson :: toJsonItems items

/-- The JSON members of the entries of a table. -/
def toJsonMembers : List (String × Toml) → List (String × Json)
  | [] => []
  | (key, value) :: entries => (key, value.toJson) :: toJsonMembers entries

end

mutual

/-- The TOML value of a JSON value; null and integers beyond 64 bits with a sign have none. -/
def ofJson? : Json → Option Toml
  | .null => none
  | .bool value => some (boolean value)
  | .number (.integer n) =>
    if -(Nat.pow 2 63 : Int) ≤ n ∧ n < Nat.pow 2 63 then some (integer n) else none
  | .number (.real x) => some (real x)
  | .string value => some (string value)
  | .array items => (ofJsonItems? items).map array
  | .object members => (ofJsonMembers? members).map table

/-- The TOML values of a list of JSON values. -/
def ofJsonItems? : List Json → Option (List Toml)
  | [] => some []
  | item :: items => do some ((← ofJson? item) :: (← ofJsonItems? items))

/-- The table entries of the members of a JSON object. -/
def ofJsonMembers? : List (String × Json) → Option (List (String × Toml))
  | [] => some []
  | (key, value) :: members => do some ((key, ← ofJson? value) :: (← ofJsonMembers? members))

end

end Toml

end SqlPipeline
