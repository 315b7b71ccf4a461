import SqlPipeline.Proofs.Model.Page

/-!
# What a page says

The search for calls inverts the writing of a page whose blocks it sees: it finds the references of
the calls in order, a keyword has the value of its last setting, and the names and tables that are
read are listed once each, in the order in which they come first.
-/

namespace SqlPipeline

/-- The name of the model that a reference reads. -/
def ModelReference.modelName? : ModelReference → Option String
  | .model _ name => some name
  | .source _ _ => none

/-- The source and the table that a reference reads. -/
def ModelReference.sourceTable? : ModelReference → Option (String × String)
  | .model _ _ => none
  | .source group table => some (group, table)

namespace ModelCalls

/-- The names of models are those of the references, without repetitions. -/
theorem modelNames_eq (calls : ModelCalls) :
    calls.modelNames = (calls.references.filterMap ModelReference.modelName?).eraseDups := by
  rw [← foldl_addNew, List.foldl_filterMap, modelNames]
  refine congrArg (fun step => List.foldl step [] calls.references) ?_
  funext names reference
  cases reference <;> rfl

/-- The source tables are those of the references, without repetitions. -/
theorem sourceTables_eq (calls : ModelCalls) :
    calls.sourceTables = (calls.references.filterMap ModelReference.sourceTable?).eraseDups := by
  rw [← foldl_addNew, List.foldl_filterMap, sourceTables]
  refine congrArg (fun step => List.foldl step [] calls.references) ?_
  funext tables reference
  cases reference <;> rfl

end ModelCalls

namespace PlainCall

/-- What the call reads. -/
def reference? : PlainCall → Option ModelReference
  | ref package name =>
    some (.model (package.map fun package => package.literal.value) name.literal.value)
  | source group table => some (.source group.literal.value table.literal.value)
  | config _ => none

/-- The settings that the call gives, in order. -/
def settings : PlainCall → List (String × String)
  | ref _ _ => []
  | source _ _ => []
  | config settings => settings.map fun setting => (setting.1.text, setting.2.literal.value)

theorem meaning_eq (call : PlainCall) :
    call.meaning = ⟨call.reference?.toList, .ofList call.settings⟩ := by
  cases call <;> rfl

end PlainCall

namespace Page

variable {page : Page}

/-- The calls of the blocks in order. -/
def calls (page : Page) : List PlainCall := page.blocks.map (·.call)

theorem references_foldr_meaning (calls : List PlainCall) :
    (calls.foldr (fun call found => PlainCall.meaning call ++ found) ∅).references =
      calls.filterMap PlainCall.reference? := by
  induction calls with
  | nil => rfl
  | cons call calls ih =>
    rw [List.foldr_cons, ModelCalls.references_append, ih, PlainCall.meaning_eq,
      List.filterMap_cons]
    cases call.reference? <;> rfl

theorem get?_settings_foldr_meaning (calls : List PlainCall) (keyword : String) :
    (calls.foldr (fun call found => PlainCall.meaning call ++ found) ∅).settings.get? keyword =
      (calls.flatMap PlainCall.settings).reverse.lookup keyword := by
  induction calls with
  | nil => rfl
  | cons call calls ih =>
    rw [List.foldr_cons, ModelCalls.settings_append, NameMap.get?_union, ih, PlainCall.meaning_eq,
      NameMap.get?_ofList, List.flatMap_cons, List.reverse_append, List.lookup_append]

/-- Of blocks that the search sees every one counts. -/
theorem found_of_seen (seen : ∀ block ∈ page.blocks, block.Seen) :
    page.found = page.calls.foldr (fun call found => PlainCall.meaning call ++ found) ∅ := by
  rw [found, calls]
  generalize page.blocks = blocks at seen
  induction blocks with
  | nil => rfl
  | cons block blocks ih =>
    obtain ⟨here, later⟩ := List.forall_mem_cons.mp seen
    rw [List.foldr_cons, ih later, PlainBlock.found, if_pos here]
    rfl

/-- The search for calls finds in a page what the calls of its blocks read, in order, if no block
has a sign inside its braces, blanks before its arguments or, unless it holds settings, a comma
after them.  Of the settings of a keyword the last one counts, and the names of models and the
source tables are listed once each, where they come first. -/
theorem calls_of_seen_page (seen : ∀ block ∈ page.blocks, block.Seen) :
    let found := ModelCalls.ofText page.text
    let references := page.calls.filterMap PlainCall.reference?
    found.references = references ∧
      (∀ keyword, found.settings.get? keyword =
        (page.calls.flatMap PlainCall.settings).reverse.lookup keyword) ∧
      found.modelNames = (references.filterMap ModelReference.modelName?).eraseDups ∧
      found.sourceTables = (references.filterMap ModelReference.sourceTable?).eraseDups := by
  intro found references
  have calls : found = page.calls.foldr (fun call found => PlainCall.meaning call ++ found) ∅ :=
    (ofText_page page).trans (found_of_seen seen)
  have read : found.references = references := by rw [calls, references_foldr_meaning]
  refine ⟨read, fun keyword => ?_, ?_, ?_⟩
  · rw [calls, get?_settings_foldr_meaning]
  · rw [ModelCalls.modelNames_eq, read]
  · rw [ModelCalls.sourceTables_eq, read]

/-- A text without quotes as a literal, in double quotes or in single ones. -/
def quoted (double : Bool) (text : String)
    (plain : ∀ c ∈ text.toList, c ≠ '\'' ∧ c ≠ '"' ∧ c ≠ '\x7d') : Literal where
  quote := if double then '"' else '\''
  content := text.toList
  quotes := by cases double <;> simp
  inside := fun c member => by cases double <;> simp [plain c member]

/-- A page that sets a keyword in two calls and reads a model twice, once with its package. -/
def repeatedCalls : Page :=
  let blank : Gap := ⟨"\n\u2003".toList, List.all_iff_forall_prop.mp (by decide)⟩
  let keyword : Keyword := ⟨blank, "alias".toList, blank, by decide,
    List.all_iff_forall_prop.mp (by decide)⟩
  let old : Item := ⟨blank, quoted false "old" (List.all_iff_forall_prop.mp (by decide)), .empty⟩
  let new : Item := ⟨.empty, quoted true "new" (List.all_iff_forall_prop.mp (by decide)), blank⟩
  let core : Positional :=
    ⟨⟨.empty, quoted true "core" (List.all_iff_forall_prop.mp (by decide)), blank⟩, by decide⟩
  let users : Positional :=
    ⟨⟨blank, quoted false "us)er" (List.all_iff_forall_prop.mp (by decide)), .empty⟩, by decide⟩
  let remark : PlainComment := ⟨" ref('y') ".toList, List.all_iff_forall_prop.mp (by decide)⟩
  let close (call : PlainCall) : PlainTag :=
    .block ⟨.none, .empty, call, .empty, .none, .empty, .none⟩
  ⟨[(⟨"\x7d\x7d".toList, by decide⟩,
      .block ⟨.none, .empty, .config [(keyword, old), (keyword, new)], .empty, some blank, .empty,
        .none⟩),
    (⟨"".toList, by decide⟩,
      .block ⟨.none, blank, .ref (some core) users, .empty, .none, .empty, .none⟩),
    (⟨"\x7d".toList, by decide⟩,
      .block ⟨.none, .empty, .source core users, .empty, .none, blank, .none⟩),
    (⟨"".toList, by decide⟩, .comment remark),
    (⟨"".toList, by decide⟩, close (.config [(keyword, old)])),
    (⟨"\n".toList, by decide⟩, close (.ref .none users))],
    ⟨"ref('x')".toList, by decide⟩⟩

example : repeatedCalls.text =
    "\x7d\x7d\x7b\x7bconfig(\n\u2003alias\n\u2003=\n\u2003'old'," ++
    "\n\u2003alias\n\u2003=\"new\"\n\u2003,\n\u2003)\x7d\x7d" ++
    "\x7b\x7b\n\u2003ref(\"core\"\n\u2003,\n\u2003'us)er')\x7d\x7d" ++
    "\x7d\x7b\x7bsource(\"core\"\n\u2003,\n\u2003'us)er')\n\u2003\x7d\x7d" ++
    "\x7b# ref('y') #\x7d\x7b\x7bconfig(\n\u2003alias\n\u2003=\n\u2003'old')\x7d\x7d" ++
    "\n\x7b\x7bref(\n\u2003'us)er')\x7d\x7dref('x')" := by
  decide +kernel

/-- The blocks do not disturb each other, whatever stands between them. -/
theorem calls_of_seen_page_repeated :
    (∀ block ∈ repeatedCalls.blocks, block.Seen) ∧
      (ModelCalls.ofText repeatedCalls.text).references =
        [.model (some "core") "us)er", .source "core" "us)er", .model none "us)er"] ∧
      (ModelCalls.ofText repeatedCalls.text).settings.get? "alias" = some "old" ∧
      (ModelCalls.ofText repeatedCalls.text).settings.get? "schema" = none ∧
      (ModelCalls.ofText repeatedCalls.text).modelNames = ["us)er"] ∧
      (ModelCalls.ofText repeatedCalls.text).sourceTables = [("core", "us)er")] := by
  have seen : ∀ block ∈ repeatedCalls.blocks, block.Seen :=
    List.all_iff_forall_prop.mp (by decide)
  obtain ⟨references, settings, names, tables⟩ := calls_of_seen_page seen
  exact ⟨seen, references, settings "alias", settings "schema", names, tables⟩

end Page
end SqlPipeline
