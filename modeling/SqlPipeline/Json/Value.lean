import SqlPipeline.NameMap
import SqlPipeline.Number.Binary64

/-!
# JSON values

An object keeps its members in the order in which they are written, because reports list the fields
of a record in a fixed order. Free-form values such as project variables are kept in canonical
form, with the members of every object ascending and without repetition.
-/

namespace SqlPipeline

/-- A JSON number: an integer of 64 bits, or a floating-point number. -/
inductive Json.Number where
  /-- An integer between `-2 ^ 63` and `2 ^ 64 - 1`. -/
  | integer (value : Int)
  /-- A number written with a point or an exponent, or too long for an integer. -/
  | real (value : Binary64)
deriving DecidableEq

/-- A JSON value. -/
inductive Json where
  | null
  | bool (value : Bool)
  | number (value : Json.Number)
  | string (value : String)
  | array (items : List Json)
  | object (members : List (String × Json))

namespace Json

instance : Inhabited Json := ⟨null⟩

mutual

/-- Whether two values are written alike, member order included. -/
def same : Json → Json → Bool
  | null, null => true
  | bool a, bool b => a == b
  | number a, number b => a == b
  | string a, string b => a == b
  | array a, array b => sameItems a b
  | object a, object b => sameMembers a b
  | _, _ => false

/-- Whether two lists of values are written alike. -/
def sameItems : List Json → List Json → Bool
  | [], [] => true
  | a :: as, b :: bs => same a b && sameItems as bs
  | _, _ => false

/-- Whether two lists of members are written alike. -/
def sameMembers : List (String × Json) → List (String × Json) → Bool
  | [], [] => true
  | (key, a) :: as, (other, b) :: bs => key == other && same a b && sameMembers as bs
  | _, _ => false

end

instance : BEq Json := ⟨same⟩

mutual

/-- Order the members of every object by key, where the last of several members of one key stays,
and read a number that is not finite as null. -/
def canonical : Json → Json
  | number (.real value) => if value.isFinite then number (.real value) else null
  | array items => array (canonicalItems items)
  | object members => object (canonicalMembers [] members)
  | value => value

/-- Canonical forms of a list of values. -/
def canonicalItems : List Json → List Json
  | [] => []
  | item :: items => canonical item :: canonicalItems items

/-- Add the canonical forms of members to an ascending list. -/
def canonicalMembers (ascending : List (String × Json)) :
    List (String × Json) → List (String × Json)
  | [] => ascending
  | (key, value) :: members =>
    canonicalMembers (NameMap.insertEntry key (canonical value) ascending) members

end

/-- What stands for a value that is well written but denotes nothing. It is neither text nor number,
so nothing can be read from it. -/
def unreadable : Json := number (.real .notANumber)

mutual

/-- Whether all parts of a value that nests at most `depth` deep denote something. -/
def isReadable (depth : Nat) : Json → Bool
  | number (.real value) => value.isFinite
  | array items =>
    match depth with
    | 0 => false
    | depth + 1 => areReadable depth items
  | object members =>
    match depth with
    | 0 => false
    | depth + 1 => haveReadable depth members
  | _ => true

/-- Whether all items denote something. -/
def areReadable (depth : Nat) : List Json → Bool
  | [] => true
  | item :: items => isReadable depth item && areReadable depth items

/-- Whether the values of all members denote something. -/
def haveReadable (depth : Nat) : List (String × Json) → Bool
  | [] => true
  | (_, value) :: members => isReadable depth value && haveReadable depth members

end

/-- An integer. -/
def int (n : Int) : Json := number (.integer n)

/-- A natural number. -/
def nat (n : Nat) : Json := int n

/-- A list of strings. -/
def strings (texts : List String) : Json := array (texts.map string)

/-- A value that may be missing, written as null. -/
def nullable {α : Type} (write : α → Json) : Option α → Json
  | some value => write value
  | none => null

/-- A member that is left out when its value is missing. -/
def optionalMember {α : Type} (key : String) (write : α → Json) :
    Option α → List (String × Json)
  | some value => [(key, write value)]
  | none => []

/-- A map written as an object, ascending by key. -/
def ofMap {α : Type} (write : α → Json) (map : NameMap α) : Json :=
  object (map.entries.map fun entry => (entry.1, write entry.2))

end Json

end SqlPipeline
