import SqlPipeline.Toml.Value

/-!
# Assembling TOML tables

The lines of a document put entries into tables. A table may be implied by the path of a header, be
opened by a header of its own once, or be made by dotted keys; it cannot be extended in two of these
ways, and no key is given a value twice.
-/

namespace SqlPipeline.Toml

/-- How a table came about. -/
inductive Origin where
  /-- By a header of its own. -/
  | explicit
  /-- By the header of a table below it. -/
  | implied
  /-- By dotted keys. -/
  | dotted
deriving DecidableEq

/-- A table, a list of tables or a value while a document is read. -/
inductive Draft where
  | value (value : Toml)
  | table (origin : Origin) (entries : List (String × Draft))
  | tables (items : List (List (String × Draft)))

/-- A line of a document. -/
inductive Line where
  | header (path : List String)
  | itemHeader (path : List String)
  | entry (path : List String) (value : Toml)

namespace Draft

mutual

/-- The value of a draft. -/
def toToml : Draft → Toml
  | value plain => plain
  | table _ entries => .table (entriesToToml entries)
  | tables items => .array (itemsToToml items)

/-- The entries of a table. -/
def entriesToToml : List (String × Draft) → List (String × Toml)
  | [] => []
  | (key, draft) :: entries => (key, draft.toToml) :: entriesToToml entries

/-- The tables of a list. -/
def itemsToToml : List (List (String × Draft)) → List Toml
  | [] => []
  | item :: items => .table (entriesToToml item) :: itemsToToml items

end

/-- Replace the draft at a key. -/
def replace (key : String) (draft : Draft) (entries : List (String × Draft)) :
    List (String × Draft) :=
  entries.map fun entry => if entry.1 = key then (key, draft) else entry

/-- Change the table at a path; tables that are missing on the way are made. A list of tables stands
for its last one. -/
def descend? (dotted : Bool) (change : List (String × Draft) → Option (List (String × Draft))) :
    List String → List (String × Draft) → Option (List (String × Draft))
  | [], entries => change entries
  | key :: path, entries =>
    match entries.lookup key with
    | none => do
      let inner ← descend? dotted change path []
      some (entries ++ [(key, table (if dotted then .dotted else .implied) inner)])
    | some (value _) => none
    | some (table origin inner) =>
      if dotted && (origin = .explicit || (path.isEmpty && origin ≠ .dotted)) then none
      else do
        let inner ← descend? dotted change path inner
        some (replace key (table origin inner) entries)
    | some (tables items) =>
      if dotted && path.isEmpty then none
      else do
        let last ← items.getLast?
        let last ← descend? dotted change path last
        some (replace key (tables (items.dropLast ++ [last])) entries)

/-- Give a key a value, which it must not have. -/
def add? (key : String) (draft : Draft) (entries : List (String × Draft)) :
    Option (List (String × Draft)) :=
  if (entries.lookup key).isSome then none else some (entries ++ [(key, draft)])

/-- Give a dotted key a value. -/
def addPath? (path : List String) (plain : Toml) (entries : List (String × Draft)) :
    Option (List (String × Draft)) := do
  let key ← path.getLast?
  descend? true (add? key (.value plain)) path.dropLast entries

/-- Open the table of a header. -/
def openTable? (key : String) (entries : List (String × Draft)) :
    Option (List (String × Draft)) :=
  match entries.lookup key with
  | none => some (entries ++ [(key, table .explicit [])])
  | some (table .implied inner) => some (replace key (table .explicit inner) entries)
  | _ => none

/-- Open the next table of a list. -/
def openItem? (key : String) (entries : List (String × Draft)) : Option (List (String × Draft)) :=
  match entries.lookup key with
  | none => some (entries ++ [(key, tables [[]])])
  | some (tables items) => some (replace key (tables (items ++ [[]])) entries)
  | _ => none

/-- Take up the lines of a document below the table at a path. -/
def assemble? : List String → List (String × Draft) → List Line → Option (List (String × Draft))
  | _, entries, [] => some entries
  | current, entries, .entry path plain :: lines => do
    let entries ← descend? false (addPath? path plain) current entries
    assemble? current entries lines
  | _, entries, .header path :: lines => do
    let key ← path.getLast?
    let entries ← descend? false (openTable? key) path.dropLast entries
    assemble? path entries lines
  | _, entries, .itemHeader path :: lines => do
    let key ← path.getLast?
    let entries ← descend? false (openItem? key) path.dropLast entries
    assemble? path entries lines

/-- The table of a list of dotted keys with values. -/
def ofEntries? (entries : List (List String × Toml)) : Option Toml := do
  let drafts ← entries.foldlM (fun drafts entry => addPath? entry.1 entry.2 drafts) []
  some (.table (entriesToToml drafts))

end Draft

end SqlPipeline.Toml
