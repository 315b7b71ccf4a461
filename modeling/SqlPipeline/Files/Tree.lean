import SqlPipeline.Files.Path

/-!
# File trees

A tree maps places, which are lists of names from the root, to files and directories. The names are
texts. Paths are resolved against a working directory, and an operation that cannot be carried out
reports why in the words of the system.
-/

namespace SqlPipeline

/-- What is at a place. -/
inductive FileEntry where
  | text (content : String)
  /-- A file whose content is no text. -/
  | binary (content : List UInt8)
  | directory
deriving DecidableEq

/-- Why a file operation fails. -/
inductive FileError where
  | notFound
  | alreadyExists
  | notADirectory
  | isADirectory
  | notText
  /-- A name that is no text. -/
  | illegalName
deriving DecidableEq, Repr

/-- The words of the system. -/
def FileError.message : FileError → String
  | notFound => "No such file or directory (os error 2)"
  | alreadyExists => "File exists (os error 17)"
  | notADirectory => "Not a directory (os error 20)"
  | isADirectory => "Is a directory (os error 21)"
  | notText => "stream did not contain valid UTF-8"
  | illegalName => "Invalid or incomplete multibyte or wide character (os error 84)"

/-- A place: the names that lead there from the root. -/
abbrev Place := List String

namespace Path

/-- The place that a part of a path leads to from a directory. -/
def enter (place : Place) (part : String) : Place :=
  if isTrivial part then place
  else if part = ".." then place.dropLast
  else place ++ [part]

/-- The place of a path that is relative to a directory. -/
def placeFrom (directory : Place) (path : String) : Place :=
  (parts path).foldl enter (if isAbsolute path then [] else directory)

end Path

/-- Files and directories, and the directory that relative paths start from. The root is a directory
that is always there. -/
structure FileTree where
  /-- What is at each place, where an earlier entry of a place hides later ones. -/
  entries : List (Place × FileEntry)
  workingDirectory : Place

namespace FileTree

/-- The tree with a working directory and nothing in it. -/
def withDirectory (place : Place) : FileTree :=
  ⟨(List.range place.length).map fun n => (place.take (n + 1), .directory), place⟩

/-- What is at a place. -/
def entry? (tree : FileTree) (place : Place) : Option FileEntry :=
  if place.isEmpty then some .directory else tree.entries.lookup place

/-- Put something at a place. -/
def put (tree : FileTree) (place : Place) (entry : FileEntry) : FileTree :=
  { tree with entries := (place, entry) :: tree.entries.filter (·.1 ≠ place) }

/-- The meaningful parts of a path as the system reads it; a slash at the end asks for a
directory. -/
def steps (path : String) : List String :=
  let parts := Path.parts path
  let ending := if 1 < parts.length ∧ parts.getLast? = some "" then ["."] else []
  parts.filter (· ≠ "") ++ ending

/-- Where a path leads: each step has to start from a directory. The last step may lead to nothing;
then it is the second result. -/
def follow (tree : FileTree) : Place → List String → Except FileError (Place × Bool)
  | place, [] => .ok (place, true)
  | place, step :: steps =>
    match tree.entry? place with
    | none => .error .notFound
    | some .directory =>
      if step = "." then follow tree place steps
      else if step = ".." then follow tree place.dropLast steps
      else
        let next := place ++ [step]
        match steps, tree.entry? next with
        | [], none => .ok (next, false)
        | _, _ => follow tree next steps
    | some _ => .error .notADirectory

/-- The place of a path, and whether something is there. -/
def resolve (tree : FileTree) (path : String) : Except FileError (Place × Bool) :=
  if path.isEmpty then .error .notFound
  else tree.follow (if Path.isAbsolute path then [] else tree.workingDirectory) (steps path)

/-- What a path leads to. -/
def find? (tree : FileTree) (path : String) : Option (Place × FileEntry) :=
  match tree.resolve path with
  | .ok (place, _) => (tree.entry? place).map (place, ·)
  | .error _ => none

/-- Whether a path leads to something. -/
def pathExists (tree : FileTree) (path : String) : Bool := (tree.find? path).isSome

/-- Whether a path leads to a directory. -/
def isDirectory (tree : FileTree) (path : String) : Bool :=
  match tree.find? path with
  | some (_, .directory) => true
  | _ => false

/-- The text of a file. -/
def read (tree : FileTree) (path : String) : Except FileError String := do
  let (place, _) ← tree.resolve path
  match tree.entry? place with
  | none => .error .notFound
  | some .directory => .error .isADirectory
  | some (.binary _) => .error .notText
  | some (.text content) => .ok content

/-- Write a file, replacing an earlier one. -/
def writeEntry (tree : FileTree) (path : String) (content : FileEntry) :
    Except FileError FileTree := do
  let (place, _) ← tree.resolve path
  match tree.entry? place with
  | some .directory => .error .isADirectory
  | _ => .ok (tree.put place content)

/-- Write a text to a file, replacing an earlier one. -/
def write (tree : FileTree) (path content : String) : Except FileError FileTree :=
  tree.writeEntry path (.text content)

/-- Create a directory. -/
def createDirectory (tree : FileTree) (path : String) : Except FileError FileTree := do
  let (place, present) ← tree.resolve path
  if present then .error .alreadyExists else .ok (tree.put place .directory)

/-- Create a directory and its missing parents; the depth of the path bounds the steps. -/
def createDirectoriesWithin : Nat → FileTree → String → Except FileError FileTree
  | 0, _, _ => .error .notFound
  | fuel + 1, tree, path =>
    if path.isEmpty then .ok tree
    else match tree.createDirectory path with
      | .ok tree => .ok tree
      | .error .notFound => do
        match Path.parent? path with
        | none => .error .notFound
        | some parent =>
          let tree ← createDirectoriesWithin fuel tree parent
          match tree.createDirectory path with
          | .ok tree => .ok tree
          | .error error => if tree.isDirectory path then .ok tree else .error error
      | .error error => if tree.isDirectory path then .ok tree else .error error

/-- Create a directory and its missing parents. -/
def createDirectories (tree : FileTree) (path : String) : Except FileError FileTree :=
  createDirectoriesWithin (path.length + 1) tree path

/-- The files at a path or below it, each with its path. -/
def filesBelow (tree : FileTree) (path : String) : List String :=
  match tree.find? path with
  | none => []
  | some (place, .directory) =>
    tree.entries.filterMap fun entry =>
      if place.isPrefixOf entry.1 ∧ place ≠ entry.1 ∧ entry.2 ≠ .directory then
        some ((entry.1.drop place.length).foldl Path.join path)
      else none
  | some _ => [path]

end FileTree

end SqlPipeline
