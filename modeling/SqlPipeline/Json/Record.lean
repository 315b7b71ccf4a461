import SqlPipeline.Json.Value

/-!
# Reading records from JSON

A record is written as an object with its fields as members, in any order and beside members that
are ignored, or as an array that lists the fields in order of declaration. A field may be required,
may have a default, or may be missing.
-/

namespace SqlPipeline.Json

/-- A text. -/
def text? : Json → Option String
  | string value => some value
  | _ => none

/-- A truth value. -/
def bool? : Json → Option Bool
  | bool value => some value
  | _ => none

/-- A natural number below a bound. -/
def natBelow? (bound : Nat) : Json → Option Nat
  | number (.integer n) => if 0 ≤ n ∧ n < bound then some n.toNat else none
  | _ => none

/-- A natural number of 64 bits. -/
def nat? : Json → Option Nat := natBelow? (Nat.pow 2 64)

/-- A signed integer of 64 bits. -/
def int? : Json → Option Int
  | number (.integer n) => if n < Nat.pow 2 63 then some n else none
  | _ => none

/-- A finite floating-point number, possibly written as an integer. -/
def real? : Json → Option Binary64
  | number (.integer n) => some (Binary64.ofInt n)
  | number (.real value) => if value.isFinite then some value else none
  | _ => none

/-- A list of values. -/
def list? {α : Type} (read : Json → Option α) : Json → Option (List α)
  | array items => items.mapM read
  | _ => none

/-- A list of texts. -/
def texts? : Json → Option (List String) := list? text?

/-- A value or null. -/
def nullable? {α : Type} (read : Json → Option α) : Json → Option (Option α)
  | null => some none
  | value => (read value).map some

/-- A map from names, where the last of several members of one key stays. -/
def map? {α : Type} (read : Json → Option α) : Json → Option (NameMap α)
  | object members => do
    let entries ← members.mapM fun (key, value) => (read value).map (key, ·)
    some (NameMap.ofList entries)
  | _ => none

/-- One of several named values, written as its name or as an object with that one member and
null in it. -/
def named? {α : Type} (names : List (String × α)) : Json → Option α
  | string name => names.lookup name
  | object [(name, null)] => names.lookup name
  | _ => none

/-- The fields of a record as they were written. -/
structure Record where
  /-- The fields that were written, with their names. -/
  fields : List (String × Json)
  /-- Whether the fields were listed in order of declaration. -/
  listed : Bool

namespace Record

/-- The fields of a record with the given field names. A known field must not occur twice, and a
list must not be longer than the record unless `surplus` items are ignored. -/
def read? (surplus : Bool) (names : List String) : Json → Option Record
  | object members =>
    let known := members.filter fun member => names.contains member.1
    if (known.map (·.1)).Nodup then some ⟨known, false⟩ else none
  | array items =>
    if items.length ≤ names.length || surplus then some ⟨names.zip items, true⟩ else none
  | _ => none

/-- A field that must be there. -/
def required? {α : Type} (record : Record) (name : String) (read : Json → Option α) : Option α :=
  (record.fields.lookup name).bind read

/-- A field with a default. -/
def withDefault? {α : Type} (record : Record) (name : String) (default : α)
    (read : Json → Option α) : Option α :=
  match record.fields.lookup name with
  | some value => read value
  | none => some default

/-- A field that may be null, or missing from an object. -/
def nullable? {α : Type} (record : Record) (name : String) (read : Json → Option α) :
    Option (Option α) :=
  match record.fields.lookup name with
  | some value => Json.nullable? read value
  | none => if record.listed then none else some none

end Record

end SqlPipeline.Json
