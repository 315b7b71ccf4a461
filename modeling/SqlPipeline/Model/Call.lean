import SqlPipeline.NameMap
import SqlPipeline.Text.Blank
import SqlPipeline.Text.Search
import SqlPipeline.Text.Word

/-!
# Calls in a model

What a model reads and how it is built is found in its text before anything is rendered: blocks in
double braces that hold nothing but one call of `ref`, `source` or `config` with quoted arguments.
-/

namespace SqlPipeline

/-- What a model reads. -/
inductive ModelReference where
  /-- Another model, possibly with its package. -/
  | model (package : Option String) (name : String)
  /-- A table of a source. -/
  | source (source table : String)
deriving DecidableEq, Repr

/-- What the calls in a model say. -/
structure ModelCalls where
  /-- What the model reads, in order of the calls. -/
  references : List ModelReference
  /-- The settings of the model, of which the last one of each name counts. -/
  settings : NameMap String
deriving DecidableEq

namespace ModelCalls

/-- The contents of the blocks in double braces, without blanks around them. -/
def blocks : Nat → List Char → List (List Char)
  | 0, _ => []
  | fuel + 1, text =>
    match Text.splitFirst? ['\x7b', '\x7b'] text with
    | none => []
    | some (_, rest) =>
      match Text.splitFirst? ['\x7d', '\x7d'] rest with
      | none => []
      | some (content, rest) => Text.trimChars content :: blocks fuel rest

/-- The arguments of a call, if a block is nothing but a call of the function. -/
def argumentsOf? (function : String) (content : List Char) : Option (List Char) := do
  let rest ← Text.after? (function.toList ++ ['(']) content
  if rest.getLast? = some ')' then some rest.dropLast else none

/-- The content of a text between two quotes of one kind. -/
def unquoted? (quote : Char) (text : List Char) : Option (List Char) := do
  let rest ← Text.after? [quote] text
  if rest.getLast? = some quote then some rest.dropLast else none

/-- The content of a quoted argument, with blanks around it. -/
def literal? (text : List Char) : Option String :=
  let text := Text.trimChars text
  ((unquoted? '\'' text).or (unquoted? '"' text)).map String.ofList

/-- The contents of quoted arguments with commas between them. -/
def literals? (text : List Char) : Option (List String) :=
  (Text.splitOnChar ',' text).mapM literal?

/-- The model that a block reads. -/
def model? (content : List Char) : Option ModelReference := do
  match ← literals? (← argumentsOf? "ref" content) with
  | [name] => some (.model none name)
  | [package, name] => some (.model (some package) name)
  | _ => none

/-- The source table that a block reads. -/
def source? (content : List Char) : Option ModelReference := do
  match ← literals? (← argumentsOf? "source" content) with
  | [source, table] => some (.source source table)
  | _ => none

/-- The quoted value after an equals sign, and the rest. -/
def settingValue? (text : List Char) : Option (String × List Char) :=
  match text.dropWhile Text.isBlank with
  | '=' :: rest =>
    match rest.dropWhile Text.isBlank with
    | quote :: rest =>
      if quote = '\'' ∨ quote = '"' then
        (Text.splitFirst? [quote] rest).map fun (value, rest) => (String.ofList value, rest)
      else none
    | [] => none
  | _ => none

/-- The settings in the arguments of a call, in order: words with a quoted value. -/
def settingsIn : Nat → List Char → List (String × String)
  | 0, _ => []
  | _ + 1, [] => []
  | fuel + 1, c :: rest =>
    let (word, after) := (c :: rest).span Text.isWord
    if word.isEmpty then settingsIn fuel rest
    else match settingValue? after with
      | some (value, rest) => (String.ofList word, value) :: settingsIn fuel rest
      | none => settingsIn fuel after

/-- The settings in a block. -/
def settings? (content : List Char) : Option (List (String × String)) :=
  (argumentsOf? "config" content).map fun text => settingsIn (text.length + 1) text

/-- Add what a block says. -/
def addBlock (calls : ModelCalls) (content : List Char) : ModelCalls :=
  match model? content with
  | some reference => { calls with references := calls.references ++ [reference] }
  | none =>
    match source? content with
    | some reference => { calls with references := calls.references ++ [reference] }
    | none =>
      match settings? content with
      | some settings => { calls with settings := calls.settings.union (.ofList settings) }
      | none => calls

/-- What the calls in the text of a model say. -/
def ofText (text : String) : ModelCalls :=
  (blocks (text.length + 1) text.toList).foldl addBlock ⟨[], .empty⟩

/-- Add an item to a list unless it is there. -/
def addNew {α : Type} [DecidableEq α] (items : List α) (item : α) : List α :=
  if item ∈ items then items else items ++ [item]

/-- The names of the models that are read, each once, in order of the calls. -/
def modelNames (calls : ModelCalls) : List String :=
  calls.references.foldl (fun names reference =>
    match reference with
    | .model _ name => addNew names name
    | .source _ _ => names) []

/-- The source tables that are read, each once, in order of the calls. -/
def sourceTables (calls : ModelCalls) : List (String × String) :=
  calls.references.foldl (fun tables reference =>
    match reference with
    | .model _ _ => tables
    | .source source table => addNew tables (source, table)) []

theorem mem_addNew {α : Type} [DecidableEq α] {items : List α} {item other : α} :
    other ∈ addNew items item ↔ other ∈ items ∨ other = item := by
  rw [addNew]
  split
  next listed =>
    constructor
    · exact .inl
    · rintro (old | rfl)
      · exact old
      · exact listed
  next => rw [List.mem_append, List.mem_singleton]

theorem nodup_addNew {α : Type} [DecidableEq α] {items : List α} (nodup : items.Nodup) (item : α) :
    (addNew items item).Nodup := by
  rw [addNew]
  split
  next => exact nodup
  next absent =>
    refine List.nodup_append.mpr ⟨nodup, by simp, fun other listed last member => ?_⟩
    rintro rfl
    exact absent (List.mem_singleton.mp member ▸ listed)

theorem foldl_addNew_eraseDups {α : Type} [DecidableEq α] [BEq α] [LawfulBEq α]
    (items start : List α) :
    items.foldl addNew start.eraseDups = (start ++ items).eraseDups := by
  induction items generalizing start with
  | nil => rw [List.foldl_nil, List.append_nil]
  | cons item items ih =>
    have first : addNew start.eraseDups item = (start ++ [item]).eraseDups := by
      rw [addNew, List.eraseDups_append]
      by_cases listed : item ∈ start
      · simp [listed, List.removeAll]
      · simp [listed, List.removeAll, List.eraseDups_cons]
    rw [List.foldl_cons, first, ih, List.append_assoc, List.singleton_append]

/-- Adding items one by one keeps each where it comes first. -/
theorem foldl_addNew {α : Type} [DecidableEq α] [BEq α] [LawfulBEq α] (items : List α) :
    items.foldl addNew [] = items.eraseDups :=
  foldl_addNew_eraseDups items []

theorem nodup_modelNames (calls : ModelCalls) : calls.modelNames.Nodup := by
  have after : ∀ (references : List ModelReference) (names : List String), names.Nodup →
      (references.foldl (fun names reference =>
        match reference with
        | .model _ name => addNew names name
        | .source _ _ => names) names).Nodup := by
    intro references
    induction references with
    | nil => exact fun _ nodup => nodup
    | cons reference references ih =>
      intro names nodup
      rw [List.foldl_cons]
      cases reference with
      | model package name => exact ih _ (nodup_addNew nodup name)
      | source => exact ih _ nodup
  exact after calls.references [] List.nodup_nil

theorem mem_modelNames {calls : ModelCalls} {name : String} :
    name ∈ calls.modelNames ↔ ∃ package, .model package name ∈ calls.references := by
  have after : ∀ (references : List ModelReference) (names : List String),
      name ∈ references.foldl (fun names reference =>
        match reference with
        | .model _ name => addNew names name
        | .source _ _ => names) names ↔
          name ∈ names ∨ ∃ package, .model package name ∈ references := by
    intro references
    induction references with
    | nil => simp
    | cons reference references ih =>
      intro names
      rw [List.foldl_cons, ih]
      cases reference with
      | model package other => simp [mem_addNew, exists_or, or_assoc]
      | source => simp
  rw [modelNames, after]
  simp

theorem mem_sourceTables {calls : ModelCalls} {source table : String} :
    (source, table) ∈ calls.sourceTables ↔ .source source table ∈ calls.references := by
  have after : ∀ (references : List ModelReference) (tables : List (String × String)),
      (source, table) ∈ references.foldl (fun tables reference =>
        match reference with
        | .model _ _ => tables
        | .source source table => addNew tables (source, table)) tables ↔
          (source, table) ∈ tables ∨ .source source table ∈ references := by
    intro references
    induction references with
    | nil => simp
    | cons reference references ih =>
      intro tables
      rw [List.foldl_cons, ih]
      cases reference with
      | model => simp
      | source group other => simp [mem_addNew, or_assoc]
  rw [sourceTables, after]
  simp

end ModelCalls

end SqlPipeline
