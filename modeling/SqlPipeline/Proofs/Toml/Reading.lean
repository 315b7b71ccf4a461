import SqlPipeline.Proofs.Toml.Values
import SqlPipeline.Toml.Parser
import SqlPipeline.Toml.Printer

/-!
# What is read from TOML

Whatever text is read, its integers have 64 bits with a sign and no table has a key twice: each line
of a document keeps the tables that the lines before it have made in that shape.  A text that was
printed is faithful if what is read from it is what was printed, up to the order of entries.
-/

namespace SqlPipeline.Toml

variable {key : String} {path : List String} {text rest : List Char} {value : Toml}

/-- The value of a draft is one that TOML has. -/
def Draft.IsSound (draft : Draft) : Prop := draft.toToml.toJson.IsToml

/-- Drafts with different keys, whose values are ones that TOML has. -/
structure AreSound (entries : List (String × Draft)) : Prop where
  distinct : (entries.map (·.1)).Nodup
  each : ∀ entry ∈ entries, entry.2.IsSound

namespace Draft

variable {draft : Draft} {origin : Origin} {entries inner after : List (String × Draft)}
  {items : List (List (String × Draft))}

theorem entriesToToml_eq (entries : List (String × Draft)) :
    entriesToToml entries = entries.map fun entry => (entry.1, entry.2.toToml) := by
  induction entries with
  | nil => rfl
  | cons entry entries ih => rw [entriesToToml, ih, List.map_cons]

theorem itemsToToml_eq (items : List (List (String × Draft))) :
    itemsToToml items = items.map fun item => .table (entriesToToml item) := by
  induction items with
  | nil => rfl
  | cons item items ih => rw [itemsToToml, ih, List.map_cons]

/-- A table is sound just if its entries are. -/
theorem isToml_table_iff :
    (Toml.table (entriesToToml entries)).toJson.IsToml ↔ AreSound entries := by
  have members : toJsonMembers (entriesToToml entries) =
      entries.map fun entry => (entry.1, entry.2.toToml.toJson) := by
    rw [toJsonMembers_eq, entriesToToml_eq, List.map_map]
    rfl
  have keys : (entries.map fun entry => (entry.1, entry.2.toToml.toJson)).map (·.1) =
      entries.map (·.1) := by
    rw [List.map_map]
    rfl
  rw [toJson, members]
  constructor
  · rintro (_ | _ | _ | _ | _ | ⟨distinct, each⟩)
    exact ⟨keys ▸ distinct, fun entry member => each _ (List.mem_map_of_mem member)⟩
  · rintro ⟨distinct, each⟩
    exact .object (keys.symm ▸ distinct) (List.forall_mem_map.mpr each)

theorem isSound_table_iff : (table origin entries).IsSound ↔ AreSound entries := isToml_table_iff

theorem isSound_tables_iff : (tables items).IsSound ↔ ∀ item ∈ items, AreSound item := by
  rw [IsSound, toToml, toJson, toJsonItems_eq, itemsToToml_eq, List.map_map]
  constructor
  · rintro (_ | _ | _ | _ | each) item member
    exact isToml_table_iff.mp (each _ (List.mem_map_of_mem member))
  · intro each
    exact .array (List.forall_mem_map.mpr fun item member =>
      isToml_table_iff.mpr (each item member))

theorem areSound_nil : AreSound [] := ⟨List.nodup_nil, by simp⟩

/-! ## Changes of tables -/

theorem isSound_of_lookup (sound : AreSound entries) (found : entries.lookup key = some draft) :
    draft.IsSound :=
  sound.each (key, draft) (NameMap.mem_of_lookup found)

/-- A new key may be added. -/
theorem areSound_append (sound : AreSound entries) (absent : entries.lookup key = none)
    (added : draft.IsSound) : AreSound (entries ++ [(key, draft)]) := by
  constructor
  · have fresh : key ∉ entries.map (·.1) := by
      rintro present
      obtain ⟨entry, member, rfl⟩ := List.mem_map.mp present
      exact absurd (List.lookup_eq_none_iff.mp absent entry member) (by simp)
    rw [List.map_append, List.map_singleton, List.nodup_append]
    refine ⟨sound.distinct, by simp, fun name present other single same => ?_⟩
    rw [same, List.mem_singleton.mp single] at present
    exact fresh present
  · exact List.forall_mem_append.mpr ⟨sound.each, List.forall_mem_singleton.mpr added⟩

/-- The value of a key may be replaced. -/
theorem areSound_replace (sound : AreSound entries) (replaced : draft.IsSound) :
    AreSound (replace key draft entries) := by
  constructor
  · have keys : (replace key draft entries).map (·.1) = entries.map (·.1) := by
      rw [replace, List.map_map]
      refine List.map_congr_left fun entry _ => ?_
      rw [Function.comp_apply]
      split
      next same => exact same.symm
      next => rfl
    exact keys ▸ sound.distinct
  · refine List.forall_mem_map.mpr fun entry member => ?_
    split
    · exact replaced
    · exact sound.each entry member

/-- A change that keeps tables sound. -/
def KeepsSound (change : List (String × Draft) → Option (List (String × Draft))) : Prop :=
  ∀ entries after, AreSound entries → change entries = some after → AreSound after

/-- A change of the table at a path keeps the tables above it sound. -/
theorem keepsSound_descend? {change : List (String × Draft) → Option (List (String × Draft))}
    (keeps : KeepsSound change) (dotted : Bool) (path : List String) :
    KeepsSound (descend? dotted change path) := by
  induction path with
  | nil => exact keeps
  | cons key path ih =>
    intro entries after sound run
    rw [descend?] at run
    split at run
    next absent =>
      obtain ⟨inner, made, run⟩ := Option.bind_eq_some_iff.mp run
      cases run
      exact areSound_append sound absent (isSound_table_iff.mpr (ih _ _ areSound_nil made))
    next => cases run
    next origin inner found =>
      split at run
      · cases run
      obtain ⟨changed, made, run⟩ := Option.bind_eq_some_iff.mp run
      cases run
      have before := isSound_table_iff.mp (isSound_of_lookup sound found)
      exact areSound_replace sound (isSound_table_iff.mpr (ih _ _ before made))
    next items found =>
      split at run
      · cases run
      obtain ⟨last, present, run⟩ := Option.bind_eq_some_iff.mp run
      obtain ⟨changed, made, run⟩ := Option.bind_eq_some_iff.mp run
      cases run
      have before := isSound_tables_iff.mp (isSound_of_lookup sound found)
      refine areSound_replace sound (isSound_tables_iff.mpr ?_)
      refine List.forall_mem_append.mpr ⟨fun item member => before item
        (List.dropLast_subset _ member), List.forall_mem_singleton.mpr ?_⟩
      exact ih _ _ (before last (List.mem_of_getLast? present)) made

theorem keepsSound_add? (added : draft.IsSound) (key : String) : KeepsSound (add? key draft) := by
  intro entries after sound run
  rw [add?] at run
  split at run
  · cases run
  next absent =>
    cases run
    exact areSound_append sound (Option.not_isSome_iff_eq_none.mp absent) added

theorem keepsSound_addPath? (read : value.toJson.IsToml) (path : List String) :
    KeepsSound (addPath? path value) := by
  intro entries after sound run
  obtain ⟨key, -, run⟩ := Option.bind_eq_some_iff.mp run
  have added : (Draft.value value).IsSound := read
  exact keepsSound_descend? (keepsSound_add? added key) true path.dropLast entries after sound run

theorem keepsSound_openTable? (key : String) : KeepsSound (openTable? key) := by
  intro entries after sound run
  rw [openTable?] at run
  split at run
  next absent =>
    cases run
    exact areSound_append sound absent (isSound_table_iff.mpr areSound_nil)
  next inner found =>
    cases run
    have before := isSound_table_iff.mp (isSound_of_lookup sound found)
    exact areSound_replace sound (isSound_table_iff.mpr before)
  next => cases run

theorem keepsSound_openItem? (key : String) : KeepsSound (openItem? key) := by
  intro entries after sound run
  rw [openItem?] at run
  split at run
  next absent =>
    cases run
    exact areSound_append sound absent (isSound_tables_iff.mpr (by simp [areSound_nil]))
  next items found =>
    cases run
    have before := isSound_tables_iff.mp (isSound_of_lookup sound found)
    refine areSound_replace sound (isSound_tables_iff.mpr ?_)
    exact List.forall_mem_append.mpr ⟨before, List.forall_mem_singleton.mpr areSound_nil⟩
  next => cases run

theorem areSound_foldlM {pairs : List (List String × Toml)}
    (each : ∀ pair ∈ pairs, pair.2.toJson.IsToml) (sound : AreSound entries)
    (run : pairs.foldlM (fun drafts entry => addPath? entry.1 entry.2 drafts) entries =
      some after) : AreSound after := by
  induction pairs generalizing entries with
  | nil =>
    cases run
    exact sound
  | cons pair pairs ih =>
    obtain ⟨here, later⟩ := List.forall_mem_cons.mp each
    obtain ⟨middle, made, run⟩ := Option.bind_eq_some_iff.mp run
    exact ih later (keepsSound_addPath? here pair.1 entries middle sound made) run

/-- The table of dotted keys is one that TOML has. -/
theorem isToml_ofEntries? {pairs : List (List String × Toml)}
    (each : ∀ pair ∈ pairs, pair.2.toJson.IsToml) (run : ofEntries? pairs = some value) :
    value.toJson.IsToml := by
  obtain ⟨drafts, made, run⟩ := Option.bind_eq_some_iff.mp run
  cases run
  exact isToml_table_iff.mpr (areSound_foldlM each areSound_nil made)

/-- The lines of a document keep its tables sound. -/
theorem areSound_assemble? {current : List String} {lines : List Line}
    (each : ∀ path plain, Line.entry path plain ∈ lines → plain.toJson.IsToml)
    (sound : AreSound entries) (run : assemble? current entries lines = some after) :
    AreSound after := by
  induction lines generalizing current entries with
  | nil =>
    cases run
    exact sound
  | cons line lines ih =>
    have later : ∀ path plain, Line.entry path plain ∈ lines → plain.toJson.IsToml :=
      fun path plain member => each path plain (List.mem_cons_of_mem line member)
    cases line with
    | entry path plain =>
      obtain ⟨middle, made, run⟩ := Option.bind_eq_some_iff.mp run
      have kept := keepsSound_addPath? (each path plain List.mem_cons_self) path
      exact ih later (keepsSound_descend? kept false current entries middle sound made) run
    | header path =>
      obtain ⟨key, -, run⟩ := Option.bind_eq_some_iff.mp run
      obtain ⟨middle, made, run⟩ := Option.bind_eq_some_iff.mp run
      have kept := keepsSound_openTable? key
      exact ih later (keepsSound_descend? kept false path.dropLast entries middle sound made) run
    | itemHeader path =>
      obtain ⟨key, -, run⟩ := Option.bind_eq_some_iff.mp run
      obtain ⟨middle, made, run⟩ := Option.bind_eq_some_iff.mp run
      have kept := keepsSound_openItem? key
      exact ih later (keepsSound_descend? kept false path.dropLast entries middle sound made) run

end Draft

/-! ## Values -/

theorem isToml_basedInteger? {base : Nat} (run : basedInteger? base text = some (value, rest)) :
    value.toJson.IsToml := by
  obtain ⟨⟨digits, after⟩, -, run⟩ := Option.bind_eq_some_iff.mp run
  dsimp only at run
  split at run
  next small =>
    cases run
    exact .integer (by omega) (by omega)
  next => cases run

theorem isToml_integer? (run : integer? text = some (value, rest)) : value.toJson.IsToml := by
  rw [integer?.eq_def] at run
  split at run
  · exact isToml_basedInteger? run
  · exact isToml_basedInteger? run
  · exact isToml_basedInteger? run
  · generalize sign text = signed at run
    obtain ⟨negative, unsigned⟩ := signed
    obtain ⟨⟨digits, after⟩, -, run⟩ := Option.bind_eq_some_iff.mp run
    dsimp only at run
    generalize (if negative = true then -(ofDecimalDigits digits : Int)
      else ofDecimalDigits digits) = n at run
    split at run
    next bounds =>
      cases run
      exact .integer bounds.1 bounds.2
    next => cases run

theorem isToml_real? (run : real? text = some (value, rest)) : value.toJson.IsToml := by
  have bounded : ∀ (x : Binary64) (after : List Char),
      (if x = .infinite false then none else some (real x, after)) = some (value, rest) →
        value.toJson.IsToml := by
    intro x after run
    split at run
    · cases run
    · cases run
      exact .real x
  rw [real?] at run
  generalize sign text = signed at run
  obtain ⟨negative, unsigned⟩ := signed
  dsimp only at run
  split at run
  · cases run
    exact .real _
  · cases run
    exact .real _
  · obtain ⟨whole, -, run⟩ := Option.bind_eq_some_iff.mp run
    split at run
    · obtain ⟨fraction, -, run⟩ := Option.bind_eq_some_iff.mp run
      split at run
      · exact bounded _ _ run
      · exact bounded _ _ run
    · obtain ⟨power, -, run⟩ := Option.bind_eq_some_iff.mp run
      exact bounded _ _ run

theorem isToml_number? (run : number? text = some (value, rest)) : value.toJson.IsToml := by
  rw [number?] at run
  rcases Option.or_eq_some_iff.mp run with moment | ⟨-, number⟩
  · obtain ⟨read, -, same⟩ := Option.map_eq_some_iff.mp moment
    cases same
    exact .object (by simp) (by simp [Json.IsToml.string])
  · rcases Option.or_eq_some_iff.mp number with real | ⟨-, integer⟩
    · exact isToml_real? real
    · exact isToml_integer? integer

/-- Values that are read with some fuel are ones that TOML has. -/
def ReadsValues (fuel : Nat) : Prop := ∀ {depth : Nat} {text rest : List Char} {value : Toml},
  value? depth fuel text = some (value, rest) → value.toJson.IsToml

/-- Items that are read with some fuel are values that TOML has. -/
def ReadsItems (fuel : Nat) : Prop := ∀ {depth : Nat} {text rest : List Char} {items : List Toml},
  items? depth fuel text = some (items, rest) → ∀ item ∈ items, item.toJson.IsToml

/-- Entries that are read with some fuel have values that TOML has. -/
def ReadsEntries (fuel : Nat) : Prop := ∀ {depth : Nat} {text rest : List Char}
  {entries : List (List String × Toml)},
  entries? depth fuel text = some (entries, rest) → ∀ entry ∈ entries, entry.2.toJson.IsToml

variable {fuel : Nat}

theorem readsValues_succ (items : ReadsItems fuel) (entries : ReadsEntries fuel) :
    ReadsValues (fuel + 1) := by
  intro depth text rest value run
  unfold value? at run
  split at run
  · obtain ⟨read, -, same⟩ := Option.map_eq_some_iff.mp run
    cases same
    exact .string _
  · obtain ⟨read, -, same⟩ := Option.map_eq_some_iff.mp run
    cases same
    exact .string _
  · split at run
    · cases run
    · obtain ⟨read, made, same⟩ := Option.map_eq_some_iff.mp run
      cases same
      rw [toJson, toJsonItems_eq]
      exact .array (List.forall_mem_map.mpr (items made))
  · split at run
    · cases run
    · dsimp only at run
      split at run
      · obtain ⟨none, pairs, run⟩ := Option.bind_eq_some_iff.mp run
        cases pairs
        obtain ⟨table, made, run⟩ := Option.bind_eq_some_iff.mp run
        cases run
        exact Draft.isToml_ofEntries? (by simp) made
      · obtain ⟨pairs, read, run⟩ := Option.bind_eq_some_iff.mp run
        obtain ⟨table, made, run⟩ := Option.bind_eq_some_iff.mp run
        cases run
        exact Draft.isToml_ofEntries? (entries read) made
  · obtain ⟨read, -, same⟩ := Option.map_eq_some_iff.mp run
    cases same
    exact .bool _
  · obtain ⟨read, -, same⟩ := Option.map_eq_some_iff.mp run
    cases same
    exact .bool _
  · exact isToml_number? run

theorem readsItems_succ (values : ReadsValues fuel) (items : ReadsItems fuel) :
    ReadsItems (fuel + 1) := by
  intro depth text rest found run
  unfold items? at run
  split at run
  · cases run
    simp
  · obtain ⟨⟨item, after⟩, here, run⟩ := Option.bind_eq_some_iff.mp run
    have first := values here
    dsimp only at run
    split at run
    · obtain ⟨others, later, run⟩ := Option.bind_eq_some_iff.mp run
      cases run
      exact List.forall_mem_cons.mpr ⟨first, items later⟩
    · cases run
      exact List.forall_mem_singleton.mpr first
    · cases run

theorem readsEntries_succ (values : ReadsValues fuel) (entries : ReadsEntries fuel) :
    ReadsEntries (fuel + 1) := by
  intro depth text rest found run
  unfold entries? at run
  obtain ⟨⟨key, after⟩, -, run⟩ := Option.bind_eq_some_iff.mp run
  dsimp only at run
  split at run
  · obtain ⟨⟨value, after⟩, here, run⟩ := Option.bind_eq_some_iff.mp run
    have first := values here
    dsimp only at run
    split at run
    · obtain ⟨others, later, run⟩ := Option.bind_eq_some_iff.mp run
      cases run
      exact List.forall_mem_cons.mpr ⟨first, entries later⟩
    · cases run
      exact List.forall_mem_singleton.mpr first
    · cases run
  · cases run

/-- Whatever the fuel, what is read is what TOML has. -/
theorem reads_all (fuel : Nat) : ReadsValues fuel ∧ ReadsItems fuel ∧ ReadsEntries fuel := by
  induction fuel with
  | zero =>
    refine ⟨?_, ?_, ?_⟩
    all_goals
      intro depth text rest found run
      cases run
  | succ fuel ih =>
    obtain ⟨values, items, entries⟩ := ih
    exact ⟨readsValues_succ items entries, readsItems_succ values items,
      readsEntries_succ values entries⟩

/-! ## Documents -/

theorem isToml_line? (run : line? text = some (.entry path value, rest)) : value.toJson.IsToml := by
  unfold line? at run
  split at run
  · obtain ⟨⟨header, after⟩, -, run⟩ := Option.bind_eq_some_iff.mp run
    dsimp only at run
    split at run <;> cases run
  · obtain ⟨⟨header, after⟩, -, run⟩ := Option.bind_eq_some_iff.mp run
    dsimp only at run
    split at run <;> cases run
  · obtain ⟨⟨key, after⟩, -, run⟩ := Option.bind_eq_some_iff.mp run
    dsimp only at run
    split at run
    · obtain ⟨⟨plain, after⟩, read, run⟩ := Option.bind_eq_some_iff.mp run
      cases run
      exact (reads_all _).1 read
    · cases run

theorem isToml_documentLines? {lines : List Line} (run : documentLines? fuel text = some lines)
    (member : .entry path value ∈ lines) : value.toJson.IsToml := by
  induction fuel generalizing text lines with
  | zero => cases run
  | succ fuel ih =>
    rw [documentLines?] at run
    split at run
    · cases run
      cases member
    · obtain ⟨line, here, run⟩ := Option.bind_eq_some_iff.mp run
      obtain ⟨after, -, run⟩ := Option.bind_eq_some_iff.mp run
      obtain ⟨others, later, run⟩ := Option.bind_eq_some_iff.mp run
      cases run
      rcases List.mem_cons.mp member with same | earlier
      · exact isToml_line? (here.trans (by rw [same]))
      · exact ih later earlier

/-- A document is a table that TOML has. -/
theorem isToml_parse? {text : String} {document : Toml} (read : parse? text = some document) :
    document.toJson.IsToml := by
  obtain ⟨lines, listed, read⟩ := Option.bind_eq_some_iff.mp read
  obtain ⟨entries, assembled, read⟩ := Option.bind_eq_some_iff.mp read
  cases read
  exact Draft.isToml_table_iff.mpr (Draft.areSound_assemble?
    (fun path plain member => isToml_documentLines? listed member) Draft.areSound_nil assembled)

/-! ## What was printed -/

/-- A document is faithful if its text denotes the same table, up to the order of entries. -/
def ReadsBack (document : List (String × Toml)) : Prop :=
  ∃ read, parse? (print document) = some read ∧
    read.toJson.canonical = (table document).toJson.canonical

/-- The table that characters denote. -/
def parseChars? (chars : List Char) : Option Toml := do
  let chars := match chars with
    | '\uFEFF' :: rest => rest
    | chars => chars
  let lines ← documentLines? (chars.length + 1) chars
  let entries ← Draft.assemble? [] [] lines
  some (.table (Draft.entriesToToml entries))

/-- The characters of a document. -/
def printChars (document : List (String × Toml)) : List Char :=
  let lines := plainLines document
  let sections := entrySections [] document
  if lines.isEmpty then sections.drop 1 else lines ++ sections

theorem parse?_print (document : List (String × Toml)) :
    parse? (print document) = parseChars? (printChars document) := by
  have chars : print document = String.ofList (printChars document) := rfl
  rw [chars, parse?, String.toList_ofList]
  rfl

instance : DecidablePred ReadsBack := fun document =>
  decidable_of_iff
    ((parseChars? (printChars document)).any (fun read =>
      read.toJson.canonical = (table document).toJson.canonical) = true)
    (by simp [ReadsBack, parse?_print, Option.any_eq_true])

end SqlPipeline.Toml
