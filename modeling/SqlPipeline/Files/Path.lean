import SqlPipeline.Text.Search

/-!
# Paths

A path is a text of parts between slashes. Empty parts and single points mean nothing, except for a
point at the start of a relative path; two points lead to the parent directory. A path is shown as
it was written, but compared by its components.
-/

namespace SqlPipeline.Path

/-- A meaningful part of a path. -/
inductive Component where
  | root
  | current
  | parent
  | normal (name : String)
deriving DecidableEq, Repr

/-- The texts between slashes. -/
def parts (path : String) : List String :=
  (Text.splitOnChar '/' path.toList).map String.ofList

/-- Whether a path starts at the root. -/
def isAbsolute (path : String) : Bool := path.toList.head? == some '/'

/-- Whether a part means nothing. -/
def isTrivial (part : String) : Bool := part == "" || part == "."

/-- The component of a part that means something. -/
def component (part : String) : Component := if part == ".." then .parent else .normal part

/-- The components of a path. -/
def components (path : String) : List Component :=
  let rest := fun (parts : List String) => (parts.filter fun part => !isTrivial part).map component
  if isAbsolute path then .root :: rest (parts path)
  else match parts path with
    | "." :: others => .current :: rest others
    | others => rest others

/-- Parts in reverse order without trivial ones at the front; a point that starts a relative path
stays. -/
def trimParts (absolute : Bool) : List String → List String
  | [] => []
  | ["."] => if absolute then [] else ["."]
  | part :: others => if isTrivial part then trimParts absolute others else part :: others

/-- The parts of a path in reverse order, apart from trivial ones at the end. -/
def reversedParts (path : String) : List String :=
  let all := parts path
  trimParts (isAbsolute path) (if isAbsolute path then all.tail else all).reverse

/-- The path without its last component, if it has one besides the root. -/
def parent? (path : String) : Option String :=
  match reversedParts path with
  | [] => none
  | _ :: others =>
    let text := "/".intercalate (trimParts (isAbsolute path) others).reverse
    some (if isAbsolute path then "/" ++ text else text)

/-- The last component, if it is a name. -/
def fileName? (path : String) : Option String :=
  match reversedParts path with
  | [] => none
  | last :: _ => if last == "." || last == ".." then none else some last

/-- A file name before its last point and after it; a name without a point, or with no other point
than its first character, has nothing after it. -/
def splitName (name : String) : String × Option String :=
  let chars := name.toList
  let after := (chars.reverse.takeWhile (· ≠ '.')).reverse
  let before := chars.take (chars.length - after.length - 1)
  if before.isEmpty then (name, none)
  else (String.ofList before, some (String.ofList after))

/-- The file name without its extension. -/
def fileStem? (path : String) : Option String := (fileName? path).map fun name => (splitName name).1

/-- The extension of the file name. -/
def extension? (path : String) : Option String :=
  (fileName? path).bind fun name => (splitName name).2

/-- A path below a base; an absolute path stays as it is. -/
def join (base path : String) : String :=
  if isAbsolute path || base.isEmpty then path
  else if base.toList.getLast? == some '/' then base ++ path
  else base ++ "/" ++ path

/-- The parts after given components at the front. -/
def dropComponents? : List Component → List String → Option (List String)
  | [], parts => some (parts.dropWhile isTrivial)
  | _ :: _, [] => none
  | first :: others, part :: parts =>
    if isTrivial part then dropComponents? (first :: others) parts
    else if component part = first then dropComponents? others parts
    else none

/-- The path below a base, if it lies there. -/
def below? (base path : String) : Option String :=
  match components base with
  | [] => some path
  | .root :: others =>
    if isAbsolute path then (dropComponents? others (parts path)).map "/".intercalate else none
  | .current :: others =>
    match isAbsolute path, parts path with
    | false, "." :: parts => (dropComponents? others parts).map "/".intercalate
    | _, _ => none
  | others =>
    match isAbsolute path, parts path with
    | false, "." :: _ => none
    | false, parts => (dropComponents? others parts).map "/".intercalate
    | true, _ => none

/-- The order of kinds of components. -/
def Component.rank : Component → Nat
  | root => 0
  | current => 1
  | parent => 2
  | normal _ => 3

/-- The order of two components. -/
def Component.order : Component → Component → Ordering
  | normal a, normal b => compare a b
  | a, b => compare a.rank b.rank

/-- The order of two lists of components. -/
def orderComponents : List Component → List Component → Ordering
  | [], [] => .eq
  | [], _ :: _ => .lt
  | _ :: _, [] => .gt
  | a :: as, b :: bs => (a.order b).then (orderComponents as bs)

/-- Paths are ordered by their components. -/
def order (first second : String) : Ordering :=
  orderComponents (components first) (components second)

end SqlPipeline.Path
