import SqlPipeline.Proofs.Build.Compilation
import SqlPipeline.Proofs.Template.Eval

/-!
# Source tables with one key

The texts that stand for source tables are kept by a key, the names of the source and of the table
with a point between them.  As names may hold points themselves, two source tables can have one key;
then the one that comes last in a model stands for both.  Apart from that, every source table is
found as it was added.
-/

namespace SqlPipeline

namespace Template

variable {context other : RenderContext} {first second : String × String}

/-! ## Keys -/

/-- A point in the source name of the second table parts the source of the first table from its
name. -/
def Shifts (first second : String × String) : Prop :=
  ∃ middle, second.1 = first.1 ++ "." ++ middle ∧ first.2 = middle ++ "." ++ second.2

/-- The names of two source tables are the same text, parted at different points. -/
def Clash (first second : String × String) : Prop := Shifts first second ∨ Shifts second first

theorem Shifts.ne (shifts : Shifts first second) : first ≠ second := by
  rintro rfl
  obtain ⟨middle, longer, -⟩ := shifts
  have length := congrArg String.length longer
  rw [String.length_append, String.length_append] at length
  have point : ".".length = 1 := rfl
  omega

theorem Clash.ne (clash : Clash first second) : first ≠ second :=
  clash.elim Shifts.ne fun shifts => shifts.ne.symm

/-- A text with a point is parted at this point, or at one before or after it. -/
theorem append_point_eq_iff {front back front' back' : List Char} :
    front ++ '.' :: back = front' ++ '.' :: back' ↔
      (front = front' ∧ back = back') ∨
      (∃ middle, front' = front ++ '.' :: middle ∧ back = middle ++ '.' :: back') ∨
      ∃ middle, front = front' ++ '.' :: middle ∧ back' = middle ++ '.' :: back := by
  constructor
  · intro same
    rcases List.append_eq_append_iff.mp same with
      ⟨gap, longer, rest⟩ | ⟨gap, longer, rest⟩
    · cases gap with
      | nil =>
        rw [List.append_nil] at longer
        exact .inl ⟨longer.symm, (List.cons.inj rest).2⟩
      | cons c middle =>
        obtain ⟨rfl, later⟩ := List.cons.inj rest
        exact .inr (.inl ⟨middle, longer, later⟩)
    · cases gap with
      | nil =>
        rw [List.append_nil] at longer
        exact .inl ⟨longer, (List.cons.inj rest).2.symm⟩
      | cons c middle =>
        obtain ⟨rfl, later⟩ := List.cons.inj rest
        exact .inr (.inr ⟨middle, longer, later⟩)
  · rintro (⟨rfl, rfl⟩ | ⟨middle, rfl, rfl⟩ | ⟨middle, rfl, rfl⟩)
    · rfl
    · rw [List.append_assoc, List.cons_append]
    · rw [List.append_assoc, List.cons_append]

theorem shifts_iff : Shifts first second ↔ ∃ middle,
    second.1.toList = first.1.toList ++ '.' :: middle ∧
      first.2.toList = middle ++ '.' :: second.2.toList := by
  constructor
  · rintro ⟨middle, source, table⟩
    refine ⟨middle.toList, ?_, ?_⟩
    · rw [source]
      simp [String.toList_append]
    · rw [table]
      simp [String.toList_append]
  · rintro ⟨middle, source, table⟩
    refine ⟨String.ofList middle, String.toList_inj.mp ?_, String.toList_inj.mp ?_⟩
    · rw [source]
      simp [String.toList_append]
    · rw [table]
      simp [String.toList_append]

/-- The key of a source table. -/
def keyOf (pair : String × String) : String := sourceKey pair.1 pair.2

/-- Two source tables have one key just if they are the same or their names clash. -/
theorem keyOf_eq_iff : keyOf first = keyOf second ↔ first = second ∨ Clash first second := by
  have spelled (pair : String × String) :
      (keyOf pair).toList = pair.1.toList ++ '.' :: pair.2.toList := by
    simp [keyOf, sourceKey, String.toList_append]
  rw [← String.toList_inj, spelled, spelled, append_point_eq_iff, Clash, shifts_iff, shifts_iff,
    String.toList_inj, String.toList_inj, Prod.ext_iff]

/-! ## What `source` finds -/

/-- What `source` gives for a table where the names of a context are seen. -/
def RenderContext.source (context : RenderContext) (pair : String × String) : Except Cause Value :=
  Builtin.source.apply context.names.get? [.string pair.1, .string pair.2]

theorem RenderContext.source_eq (context : RenderContext) (pair : String × String) :
    context.source pair =
      match context.sources.get? (keyOf pair) with
      | some text => .ok (.string text)
      | none => .error (.undefinedValue (some
          ("source('" ++ pair.1 ++ "', '" ++ pair.2 ++ "') is not defined"))) :=
  apply_source (get?_names_sources context) pair.1 pair.2

theorem RenderContext.source_of_get? {pair : String × String} {text : String}
    (held : context.sources.get? (keyOf pair) = some text) :
    context.source pair = .ok (.string text) := by
  rw [context.source_eq, held]

theorem sources_addSource (context : RenderContext) (pair : String × String) (text : String) :
    (context.addSource pair.1 pair.2 text).sources = context.sources.insert (keyOf pair) text := rfl

/-- Adding a source table changes what is found for another one just if their names clash. -/
theorem source_addSource_iff (different : first ≠ second) :
    (∀ (context : RenderContext) (text : String),
        (context.addSource second.1 second.2 text).source first = context.source first) ↔
      ¬Clash first second := by
  constructor
  · intro kept clash
    have same : keyOf first = keyOf second := keyOf_eq_iff.mpr (.inr clash)
    have unknown := kept (.ofTarget ⟨"", "", none, 0⟩) ""
    rw [RenderContext.source_eq, RenderContext.source_eq, sources_addSource, same,
      NameMap.get?_insert_self] at unknown
    cases unknown
  · intro apart context text
    have other : keyOf first ≠ keyOf second := fun same =>
      (keyOf_eq_iff.mp same).elim different apart
    rw [RenderContext.source_eq, RenderContext.source_eq, sources_addSource,
      NameMap.get?_insert_of_ne _ _ other]

end Template

namespace Project

open Template

variable {project : Project} {compiled : Compilation} {model : Model}
  {context result : RenderContext} {relation key : String} {pair last : String × String}
  {sources front back : List (String × String)}

/-! ## The source tables of a model -/

theorem exists_last_of_exists {α : Type} {p : α → Prop} {items : List α}
    (some : ∃ item ∈ items, p item) :
    ∃ front last back, items = front ++ last :: back ∧ p last ∧ ∀ item ∈ back, ¬p item := by
  induction items with
  | nil =>
    obtain ⟨item, member, -⟩ := some
    cases member
  | cons head items ih =>
    by_cases later : ∃ item ∈ items, p item
    · obtain ⟨front, last, back, rfl, holds, none⟩ := ih later
      exact ⟨head :: front, last, back, rfl, holds, none⟩
    · rw [List.exists_mem_cons_iff, or_iff_left later] at some
      exact ⟨[], head, items, rfl, some, fun item member holds => later ⟨item, member, holds⟩⟩

/-- Adding source tables keeps what is there under another key. -/
theorem get?_sources_of_not_read (absent : ∀ pair ∈ sources, keyOf pair ≠ key)
    (run : project.addSources sources context = .ok result) :
    result.sources.get? key = context.sources.get? key := by
  induction sources generalizing context with
  | nil =>
    rw [addSources, Except.ok.injEq] at run
    rw [run]
  | cons pair sources ih =>
    obtain ⟨here, later⟩ := List.forall_mem_cons.mp absent
    obtain ⟨text, -, run⟩ := bind_eq_ok_iff.mp run
    rw [ih later run, sources_addSource, NameMap.get?_insert_of_ne _ _ here.symm]

/-- Of the source tables with one key, the last one is kept. -/
theorem get?_sources_of_last (run : project.addSources (front ++ last :: back) context = .ok result)
    (only : ∀ pair ∈ back, keyOf pair ≠ keyOf last) :
    ∃ text, renderRelation (project.sourceRelation last.1 last.2) = .ok text ∧
      result.sources.get? (keyOf last) = some text := by
  induction front generalizing context with
  | nil =>
    obtain ⟨text, written, run⟩ := bind_eq_ok_iff.mp run
    refine ⟨text, written, ?_⟩
    rw [get?_sources_of_not_read only run, sources_addSource, NameMap.get?_insert_self]
  | cons pair front ih =>
    obtain ⟨text, -, run⟩ := bind_eq_ok_iff.mp run
    exact ih run

theorem exists_addSources (run : project.contextOf compiled model relation = .ok context) :
    ∃ start result, project.addSources model.sources start = .ok result ∧
      context.sources = result.sources := by
  obtain ⟨start, -, run⟩ := bind_eq_ok_iff.mp run
  obtain ⟨result, sources, run⟩ := bind_eq_ok_iff.mp run
  obtain rfl := Except.ok.inj run
  exact ⟨start, result, sources, rfl⟩

/-- A source table that a model reads is found as the last one that the model reads under its key:
itself, unless its names clash with those of a later one.  Adding a source table changes what is
found for another one exactly if the names of the two clash. -/
theorem source_finds_last (run : project.contextOf compiled model relation = .ok context) :
    (∀ pair ∈ model.sources, ∃ front last back, model.sources = front ++ last :: back ∧
      (last = pair ∨ Clash pair last) ∧ (∀ other ∈ back, other ≠ pair ∧ ¬Clash pair other) ∧
      ∃ text, renderRelation (project.sourceRelation last.1 last.2) = .ok text ∧
        context.source pair = .ok (.string text)) ∧
    (∀ pair ∈ model.sources, (∀ other ∈ model.sources, ¬Clash pair other) →
      ∃ text, renderRelation (project.sourceRelation pair.1 pair.2) = .ok text ∧
        context.source pair = .ok (.string text)) ∧
    ∀ first second : String × String, first ≠ second →
      ((∀ (context : RenderContext) (text : String),
          (context.addSource second.1 second.2 text).source first = context.source first) ↔
        ¬Clash first second) := by
  obtain ⟨start, result, added, same⟩ := exists_addSources run
  have found : ∀ pair ∈ model.sources, ∃ front last back, model.sources = front ++ last :: back ∧
      (last = pair ∨ Clash pair last) ∧ (∀ other ∈ back, other ≠ pair ∧ ¬Clash pair other) ∧
      ∃ text, renderRelation (project.sourceRelation last.1 last.2) = .ok text ∧
        context.source pair = .ok (.string text) := by
    intro pair listed
    obtain ⟨front, last, back, split, key, none⟩ :=
      exists_last_of_exists (p := fun other => keyOf pair = keyOf other) ⟨pair, listed, rfl⟩
    rw [split] at added
    obtain ⟨text, written, held⟩ := get?_sources_of_last added fun other member equal =>
      none other member (key.trans equal.symm)
    refine ⟨front, last, back, split, (keyOf_eq_iff.mp key).imp_left Eq.symm,
      fun other member => ?_, text, written, RenderContext.source_of_get? ?_⟩
    · have apart := mt keyOf_eq_iff.mpr (none other member)
      rw [not_or] at apart
      exact ⟨Ne.symm apart.1, apart.2⟩
    · rw [same, key, held]
  refine ⟨found, fun pair listed alone => ?_, fun first second => source_addSource_iff⟩
  obtain ⟨front, last, back, split, own, -, stands⟩ := found pair listed
  have member : last ∈ model.sources := split ▸ List.mem_append_right front List.mem_cons_self
  rwa [own.resolve_right (alone last member)] at stands

/-- The file of a model that reads two source tables whose names hold points but do not clash. -/
def pointedFiles : List (FilePath × String) :=
  [("models/m.sql", "select * from \x7b\x7b source('a', 'b') \x7d\x7d, " ++
    "\x7b\x7b source('a.b', 'c') \x7d\x7d")]

/-- Source tables that do not clash are found as they were added. -/
theorem source_finds_last_pointed :
    ∃ project model context, ofSources (.default "") pointedFiles = .ok project ∧
      project.get? "model.modelflow_project.m" = some model ∧
      model.sources = [("a", "b"), ("a.b", "c")] ∧
      project.contextOf .empty model "m" = .ok context ∧
      (∃ text, renderRelation (project.sourceRelation "a" "b") = .ok text ∧
        context.source ("a", "b") = .ok (.string text)) ∧
      ("a", "b") ≠ ("a.b", "c") ∧
      ∀ (context : RenderContext) (text : String),
        (context.addSource "a.b" "c" text).source ("a", "b") = context.source ("a", "b") := by
  obtain ⟨project, loaded, passes⟩ := exists_loaded (.default "") pointedFiles
    (fun project : Project => (project.get? "model.modelflow_project.m").any fun model : Model =>
      decide (model.sources = [("a", "b"), ("a.b", "c")]) &&
        (project.contextOf .empty model "m").isOk) (by decide +kernel)
  obtain ⟨model, found, passes⟩ := (Option.any_eq_true _ _).mp passes
  obtain ⟨sources, builds⟩ := Bool.and_eq_true_iff.mp passes
  have sources := of_decide_eq_true sources
  obtain ⟨context, run⟩ := exists_of_isOk builds
  obtain ⟨-, own, kept⟩ := source_finds_last run
  have different : ("a", "b") ≠ ("a.b", "c") := by decide
  have apart : ∀ other ∈ model.sources, ¬Clash ("a", "b") other := by
    rw [sources]
    intro other listed clash
    have same := keyOf_eq_iff.mpr (.inr clash)
    simp only [List.mem_cons, List.not_mem_nil, or_false] at listed
    rcases listed with rfl | rfl
    · exact clash.ne rfl
    · exact absurd same (by decide)
  have listed : ("a", "b") ∈ model.sources := sources ▸ List.mem_cons_self
  refine ⟨project, model, context, loaded, found, sources, run, own _ listed apart, different, ?_⟩
  exact (kept _ _ different).mpr (apart _ (sources ▸ by simp))

/-- Two source tables whose names clash render to the relation of the second one. -/
theorem clashing_sources_meet :
    let text := "select * from \x7b\x7b source('a.b', 'c') \x7d\x7d, " ++
      "\x7b\x7b source('a', 'b.c') \x7d\x7d"
    (ModelCalls.ofText text).sourceTables = [("a.b", "c"), ("a", "b.c")] ∧
      Clash ("a.b", "c") ("a", "b.c") ∧
      ∃ project built, ofSources (.default "") [("models/m.sql", text)] = .ok project ∧
        (project.sourceRelation "a.b" "c").render = .ok "\"a.b\".\"c\"" ∧
        project.compile.get? "model.modelflow_project.m" = some (.ok built) ∧
        built.sql = "select * from \"a\".\"b.c\", \"a\".\"b.c\"" := by
  intro text
  refine ⟨by decide +kernel, .inr ⟨"b", by decide, by decide⟩, ?_⟩
  obtain ⟨project, loaded, passes⟩ := exists_loaded (.default "") [("models/m.sql", text)]
    (fun project : Project =>
      (project.sourceRelation "a.b" "c").render.toOption.any (· = "\"a.b\".\"c\"") &&
      (project.compile.get? "model.modelflow_project.m").any fun result => result.toOption.any
        fun built => decide (built.sql = "select * from \"a\".\"b.c\", \"a\".\"b.c\""))
    (by decide +kernel)
  obtain ⟨relation, passes⟩ := Bool.and_eq_true_iff.mp passes
  obtain ⟨built, entry, select⟩ := exists_compiled_of_any passes
  refine ⟨project, built, loaded, ?_, entry, of_decide_eq_true select⟩
  cases written : (project.sourceRelation "a.b" "c").render with
  | error error =>
    rw [written] at relation
    cases relation
  | ok text =>
    rw [written] at relation
    exact congrArg _ (of_decide_eq_true relation)

end Project
end SqlPipeline
