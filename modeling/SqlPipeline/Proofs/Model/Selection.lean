import SqlPipeline.Model.Selector
import SqlPipeline.Proofs.Graph.Reachability
import SqlPipeline.Proofs.Model.Loading

/-!
# What a selection means

An entry of a selection is a name with or without a plus on either side, and it means a set of
models.  Selecting gives the models that some entry means, or all models if there is no entry,
without those that an excluded entry means.  It is refused exactly if an entry has no name or names
nothing, so neither the order of the entries nor how often they are repeated makes a difference.
-/

namespace SqlPipeline

/-! ## Reading entries -/

namespace Selector

/-- The plus on one side of a name, if there is one. -/
def plus (given : Bool) : List Char := if given then ['+'] else []

/-- An entry without the blanks around it is the name of a selector with a plus on the sides that
the selector says.  A name that has no plus in front of it does not begin with one, and one that has
none behind it does not end with one. -/
structure Spells (raw : String) (selector : Selector) : Prop where
  text : Text.trimChars raw.toList =
    plus selector.ancestors ++ selector.name.toList ++ plus selector.descendants
  front : selector.ancestors = false →
    (selector.name.toList ++ plus selector.descendants).head? ≠ some '+'
  back : selector.descendants = false → selector.name.toList.getLast? ≠ some '+'

variable {raw : String} {selector : Selector}

theorem exists_front (text : List Char) :
    ∃ given rest, text = plus given ++ rest ∧ (given = false → rest.head? ≠ some '+') := by
  cases text with
  | nil => exact ⟨false, [], rfl, fun _ first => nomatch first⟩
  | cons c rest =>
    by_cases same : c = '+'
    · exact ⟨true, rest, same ▸ rfl, fun none => nomatch none⟩
    · exact ⟨false, c :: rest, rfl, fun _ first => same (Option.some.inj first)⟩

theorem exists_back (text : List Char) :
    ∃ rest given, text = rest ++ plus given ∧ (given = false → rest.getLast? ≠ some '+') := by
  rcases List.eq_nil_or_concat text with rfl | ⟨rest, c, rfl⟩
  · exact ⟨[], false, rfl, fun _ last => nomatch last⟩
  · by_cases same : c = '+'
    · exact ⟨rest, true, by rw [same, List.concat_eq_append]; rfl, fun none => nomatch none⟩
    · exact ⟨rest.concat c, false, (List.append_nil _).symm, by simpa using same⟩

/-- Every entry spells a selector, though its name may be empty. -/
theorem exists_spells (raw : String) : ∃ selector, Spells raw selector := by
  obtain ⟨ancestors, rest, text, front⟩ := exists_front (Text.trimChars raw.toList)
  obtain ⟨name, descendants, rfl, back⟩ := exists_back rest
  refine ⟨⟨String.ofList name, ancestors, descendants⟩, ?_, ?_, ?_⟩
  · rw [String.toList_ofList, text, List.append_assoc]
  · rwa [String.toList_ofList]
  · rwa [String.toList_ofList]

theorem plus_append_inj {first second : Bool} {rest others : List Char}
    (same : plus first ++ rest = plus second ++ others)
    (front : first = false → rest.head? ≠ some '+')
    (front' : second = false → others.head? ≠ some '+') : first = second ∧ rest = others := by
  cases first <;> cases second
  · exact ⟨rfl, same⟩
  · exact absurd (congrArg List.head? same) (front rfl)
  · exact absurd (congrArg List.head? same).symm (front' rfl)
  · exact ⟨rfl, List.cons.inj same |>.2⟩

theorem append_plus_inj {first second : Bool} {rest others : List Char}
    (same : rest ++ plus first = others ++ plus second)
    (back : first = false → rest.getLast? ≠ some '+')
    (back' : second = false → others.getLast? ≠ some '+') : rest = others ∧ first = second := by
  cases first <;> cases second <;> simp only [plus, if_true, Bool.false_eq_true, if_false,
    List.append_nil] at same
  · exact ⟨same, rfl⟩
  · exact absurd (by simp [same]) (back rfl)
  · exact absurd (by simp [← same]) (back' rfl)
  · exact ⟨List.append_cancel_right same, rfl⟩

theorem Spells.unique {other : Selector} (first : Spells raw selector) (second : Spells raw other) :
    selector = other := by
  have text := first.text.symm.trans second.text
  rw [List.append_assoc, List.append_assoc] at text
  obtain ⟨ancestors, rest⟩ := plus_append_inj text first.front second.front
  obtain ⟨name, descendants⟩ := append_plus_inj rest first.back second.back
  cases selector
  cases other
  rw [Selector.mk.injEq]
  exact ⟨String.toList_inj.mp name, ancestors, descendants⟩

theorem Spells.exists_iff {p : Selector → Prop} (spells : Spells raw selector) :
    (∃ other, Spells raw other ∧ p other) ↔ p selector := by
  refine ⟨fun ⟨other, again, holds⟩ => ?_, fun holds => ⟨selector, spells, holds⟩⟩
  rwa [spells.unique again]

/-- Reading an entry gives the selector that it spells, and fails if that has no name. -/
theorem parse_of_spells (spells : Spells raw selector) :
    parse raw = if selector.name = "" then .error (.empty raw) else .ok selector := by
  obtain ⟨name, ancestors, descendants⟩ := selector
  obtain ⟨text, front, back⟩ := spells
  dsimp only at text front back ⊢
  have first : (Text.trimChars raw.toList).head? = some '+' ↔ ancestors = true := by
    rw [text]
    cases ancestors with
    | true => simp [plus]
    | false => simpa [plus] using front rfl
  have last : (name.toList ++ plus descendants).getLast? = some '+' ↔ descendants = true := by
    cases descendants with
    | true => simp [plus]
    | false => simpa [plus] using back rfl
  have rest : (if ancestors = true then (Text.trimChars raw.toList).drop 1
      else Text.trimChars raw.toList) = name.toList ++ plus descendants := by
    rw [text]
    cases ancestors <;> rfl
  have word : (if descendants = true then (name.toList ++ plus descendants).dropLast
      else name.toList ++ plus descendants) = name.toList := by
    cases descendants <;> simp [plus]
  have empty : name.toList.isEmpty = true ↔ name = "" := by simp
  simp only [parse, first, rest, last, word, empty, String.ofList_toList, Bool.decide_eq_true]

end Selector

/-! ## Meanings -/

/-- A model reads the model with the second id. -/
def Project.DependsOn (project : Project) (child parent : String) : Prop :=
  ∃ model, project.get? child = some model ∧ parent ∈ model.dependsOn

/-- The models that a selector means: all of them if its name is a star, and otherwise the model
with its name, the models that this one depends on if there is a plus in front, and the models that
depend on it if there is one behind. -/
def Selector.Means (selector : Selector) (project : Project) (id : String) : Prop :=
  if selector.name = "*" then ∃ model, project.get? id = some model
  else ∃ model, project.find? selector.name = some model ∧
    (id = model.id ∨
      selector.ancestors = true ∧ Relation.TransGen project.DependsOn model.id id ∨
      selector.descendants = true ∧ Relation.TransGen project.DependsOn id model.id)

namespace Project

/-- An entry has no name, or a name that is not a star and that no model has. -/
def Refuses (project : Project) (raw : String) : Prop :=
  ∃ selector, Selector.Spells raw selector ∧
    (selector.name = "" ∨ selector.name ≠ "*" ∧ project.find? selector.name = none)

/-- An entry means a model. -/
def Selects (project : Project) (raw id : String) : Prop :=
  ∃ selector, Selector.Spells raw selector ∧ selector.Means project id

variable {settings : Settings} {files : List (FilePath × String)} {project : Project}
  {selector : Selector} {model : Model} {raw id key : String}

theorem get?_id_of_find? (loaded : ofSources settings files = .ok project)
    (found : project.find? key = some model) : project.get? model.id = some model := by
  rcases Option.or_eq_some_iff.mp found with there | ⟨-, named⟩
  · rw [get?_ofSources loaded there, there]
  · obtain ⟨other, -, there⟩ := Option.bind_eq_some_iff.mp named
    rw [get?_ofSources loaded there, there]

theorem precedes_iff (loaded : ofSources settings files = .ok project) {first second : String} :
    project.graph.Precedes first second ↔ Relation.TransGen project.DependsOn second first := by
  have edges : project.graph.Edge = Function.swap project.DependsOn := by
    funext parent child
    exact propext (edge_iff loaded)
  rw [Graph.Precedes, edges, Relation.transGen_swap]

theorem refuses_iff (spells : Selector.Spells raw selector) :
    project.Refuses raw ↔
      selector.name = "" ∨ selector.name ≠ "*" ∧ project.find? selector.name = none :=
  spells.exists_iff

theorem selects_iff (spells : Selector.Spells raw selector) :
    project.Selects raw id ↔ selector.Means project id :=
  spells.exists_iff

/-! ## Outcomes -/

/-- What a selection comes to: an error where it is refused, and otherwise the ids with a property.
-/
inductive Yields (refused : Prop) (means : String → Prop) : Except SelectError NameSet → Prop
  | fails {error : SelectError} : refused → Yields refused means (.error error)
  | gives {ids : NameSet} : ¬ refused → (∀ id, id ∈ ids ↔ means id) → Yields refused means (.ok ids)

namespace Yields

variable {refused refused' : Prop} {means means' : String → Prop}
  {outcome outcome' : Except SelectError NameSet} {ids : NameSet}

theorem congr (yields : Yields refused means outcome) (refuses : refused ↔ refused')
    (same : ∀ id, means id ↔ means' id) : Yields refused' means' outcome := by
  obtain rfl := propext refuses
  obtain rfl : means = means' := funext fun id => propext (same id)
  exact yields

theorem exists_error_iff (yields : Yields refused means outcome) :
    (∃ error, outcome = .error error) ↔ refused := by
  cases yields with
  | fails refuses => exact iff_of_true ⟨_, rfl⟩ refuses
  | gives accepts => exact iff_of_false (fun ⟨_, same⟩ => nomatch same) accepts

theorem mem_iff (yields : Yields refused means (.ok ids)) (id : String) : id ∈ ids ↔ means id := by
  cases yields with
  | gives _ mem => exact mem id

theorem eq_ok (yields : Yields refused means (.ok ids)) (again : Yields refused means outcome) :
    outcome = .ok ids := by
  cases yields with
  | gives accepts mem =>
    cases again with
    | fails refuses => exact absurd refuses accepts
    | gives _ mem' => rw [NameSet.ext_mem fun id => (mem' id).trans (mem id).symm]

/-- Two outcomes are put together when neither is refused. -/
theorem combine (join : NameSet → NameSet → NameSet) (both : Prop → Prop → Prop)
    (mem_join : ∀ first second id, id ∈ join first second ↔ both (id ∈ first) (id ∈ second))
    (first : Yields refused means outcome) (second : Yields refused' means' outcome') :
    Yields (refused ∨ refused') (fun id => both (means id) (means' id))
      (outcome >>= fun one => outcome' >>= fun other => .ok (join one other)) := by
  cases first with
  | fails refuses => exact .fails (.inl refuses)
  | gives accepts mem =>
    cases second with
    | fails refuses => exact .fails (.inr refuses)
    | gives accepts' mem' =>
      refine .gives (not_or.mpr ⟨accepts, accepts'⟩) fun id => ?_
      rw [mem_join, mem, mem']

end Yields

/-! ## Entries and lists of entries -/

theorem yields_resolve (loaded : ofSources settings files = .ok project) (selector : Selector) :
    Yields (selector.name ≠ "*" ∧ project.find? selector.name = none) (selector.Means project)
      (selector.resolve project) := by
  unfold Selector.resolve
  by_cases star : selector.name = "*"
  · rw [if_pos star]
    refine .gives (fun refused => refused.1 star) fun id => ?_
    rw [NameSet.mem_ofList, NameMap.mem_keys, Selector.Means, if_pos star]
    rfl
  · rw [if_neg star]
    cases found : project.find? selector.name with
    | none => exact .fails ⟨star, rfl⟩
    | some model =>
      refine .gives (fun refused => nomatch refused.2) fun id => ?_
      have above : id ∈ (if selector.ancestors then project.graph.ancestors model.id else []) ↔
          selector.ancestors = true ∧
            id ≠ model.id ∧ Relation.TransGen project.DependsOn model.id id := by
        cases selector.ancestors <;> simp [Graph.mem_ancestors_iff, precedes_iff loaded]
      have below : id ∈ (if selector.descendants then project.graph.descendants model.id else []) ↔
          selector.descendants = true ∧
            id ≠ model.id ∧ Relation.TransGen project.DependsOn id model.id := by
        cases selector.descendants <;> simp [Graph.mem_descendants_iff, precedes_iff loaded]
      simp only [NameSet.mem_ofList, List.mem_append, List.mem_cons, above, below, Selector.Means,
        star, found, if_false, Option.some.injEq, exists_eq_left']
      tauto

/-- An entry gives what it means, unless it is refused. -/
theorem yields_entry (loaded : ofSources settings files = .ok project) (raw : String) :
    Yields (project.Refuses raw) (project.Selects raw)
      (Selector.parse raw >>= fun selector => selector.resolve project) := by
  obtain ⟨selector, spells⟩ := Selector.exists_spells raw
  rw [Selector.parse_of_spells spells]
  by_cases empty : selector.name = ""
  · rw [if_pos empty]
    exact .fails ((refuses_iff spells).mpr (.inl empty))
  · rw [if_neg empty]
    refine (yields_resolve loaded selector).congr ?_ fun id => (selects_iff spells).symm
    rw [refuses_iff spells, or_iff_right empty]

/-- A list of entries gives what any of them means, unless one is refused. -/
theorem yields_resolveAll (loaded : ofSources settings files = .ok project) (raws : List String) :
    Yields (∃ raw ∈ raws, project.Refuses raw) (fun id => ∃ raw ∈ raws, project.Selects raw id)
      (Selector.resolveAll project raws) := by
  induction raws with
  | nil => exact .gives (by simp) (by simp)
  | cons raw raws ih =>
    have both := (yields_entry loaded raw).combine .union Or (fun _ _ _ => NameSet.mem_union) ih
    rw [bind_assoc] at both
    exact both.congr (by simp) (by simp)

/-- The entries give the models that they mean, or all models if there are none, without those that
the excluded entries mean. -/
theorem yields_select (loaded : ofSources settings files = .ok project)
    (select exclude : List String) :
    Yields (∃ raw ∈ select ++ exclude, project.Refuses raw)
      (fun id => (select = [] ∧ (∃ model, project.get? id = some model) ∨
          ∃ raw ∈ select, project.Selects raw id) ∧
        ¬ ∃ raw ∈ exclude, project.Selects raw id)
      (project.select select exclude) := by
  have selected : Yields (∃ raw ∈ select, project.Refuses raw)
      (fun id => select = [] ∧ (∃ model, project.get? id = some model) ∨
        ∃ raw ∈ select, project.Selects raw id)
      (if select.isEmpty then .ok (.ofList project.models.keys)
        else Selector.resolveAll project select) := by
    cases select with
    | nil => exact .gives (by simp) fun id => by simp [NameMap.mem_keys, get?]
    | cons raw raws => exact (yields_resolveAll loaded (raw :: raws)).congr Iff.rfl (by simp)
  have both := selected.combine .diff (fun first second => first ∧ ¬ second)
    (fun _ _ _ => NameSet.mem_diff) (yields_resolveAll loaded exclude)
  have steps : project.select select exclude =
      (if select.isEmpty then .ok (.ofList project.models.keys)
        else Selector.resolveAll project select) >>= fun one =>
          Selector.resolveAll project exclude >>= fun other => .ok (one.diff other) := by
    cases select <;> rfl
  rw [steps]
  refine both.congr ?_ fun id => Iff.rfl
  simp only [List.mem_append, or_and_right, exists_or]

/-- Whatever is meant in a loaded project is one of its models. -/
theorem exists_model_of_selects (loaded : ofSources settings files = .ok project)
    (selects : project.Selects raw id) : ∃ model, project.get? id = some model := by
  obtain ⟨selector, -, means⟩ := selects
  rw [Selector.Means] at means
  split at means
  · exact means
  · obtain ⟨model, found, rfl | ⟨-, path⟩ | ⟨-, path⟩⟩ := means
    · exact ⟨model, get?_id_of_find? loaded found⟩
    · obtain ⟨_, -, reader, held, reads⟩ := Relation.TransGen.tail'_iff.mp path
      exact exists_read loaded held reads
    · obtain ⟨_, ⟨reader, held, -⟩, -⟩ := Relation.TransGen.head'_iff.mp path
      exact ⟨reader, held⟩

/-- In a loaded project, a selection is refused exactly if one of its entries, excluded or not, has
no name or a name that is not a star and that no model has.  Otherwise it gives the models that some
entry means, or all models if there is no entry, but none that an excluded entry means.  It gives
the same if the entries of each list come in another order or more often. -/
theorem select_means (loaded : ofSources settings files = .ok project)
    (select exclude : List String) :
    ((∃ error, project.select select exclude = .error error) ↔
      ∃ raw ∈ select ++ exclude, project.Refuses raw) ∧
    (∀ ids, project.select select exclude = .ok ids → ∀ id, id ∈ ids ↔
      (select = [] ∧ (∃ model, project.get? id = some model) ∨
        ∃ raw ∈ select, project.Selects raw id) ∧
      ¬ ∃ raw ∈ exclude, project.Selects raw id) ∧
    (∀ ids, project.select select exclude = .ok ids → ∀ id ∈ ids,
      ∃ model, project.get? id = some model) ∧
    ∀ included excluded : List String, (∀ raw, raw ∈ included ↔ raw ∈ select) →
      (∀ raw, raw ∈ excluded ↔ raw ∈ exclude) → ∀ ids,
        project.select select exclude = .ok ids → project.select included excluded = .ok ids := by
  have yields := yields_select loaded select exclude
  refine ⟨yields.exists_error_iff, fun ids run => ?_, fun ids run id member => ?_,
    fun included excluded sameSelect sameExclude ids run => ?_⟩
  · rw [run] at yields
    exact yields.mem_iff
  · rw [run] at yields
    obtain ⟨⟨-, there⟩ | ⟨raw, -, selects⟩, -⟩ := (yields.mem_iff id).mp member
    · exact there
    · exact exists_model_of_selects loaded selects
  · have empty : included = [] ↔ select = [] := by
      simp only [List.eq_nil_iff_forall_not_mem, sameSelect]
    rw [run] at yields
    refine yields.eq_ok ((yields_select loaded included excluded).congr ?_ fun id => ?_)
    · simp only [List.mem_append, sameSelect, sameExclude]
    · simp only [empty, sameSelect, sameExclude]

/-- The files of a model that two others read, one of which is read by a third one. -/
def forkFiles : List (FilePath × String) :=
  [("models/a.sql", "select 1"), ("models/b.sql", "select * from \x7b\x7b ref('a') \x7d\x7d"),
    ("models/c.sql", "select * from \x7b\x7b ref('b') \x7d\x7d"),
    ("models/d.sql", "select * from \x7b\x7b ref('a') \x7d\x7d")]

/-- What the first model is read by, without what the second one is read by, is the first one and
the other that reads it, in whatever order and however often this is said.  A plus alone is refused.
-/
theorem select_means_fork :
    ∃ project, ofSources (.default "") forkFiles = .ok project ∧
      (∃ ids, ids = .ofList ["model.modelflow_project.a", "model.modelflow_project.d"] ∧
        project.select ["a+", "+c"] ["b+"] = .ok ids ∧
        project.select ["+c", "a+", "+c"] ["b+", "b+"] = .ok ids ∧
        ∀ id, id ∈ ids ↔ (["a+", "+c"] = [] ∧ (∃ model, project.get? id = some model) ∨
            ∃ raw ∈ ["a+", "+c"], project.Selects raw id) ∧
          ¬ ∃ raw ∈ ["b+"], project.Selects raw id) ∧
      ∃ raw ∈ ["+"], project.Refuses raw := by
  obtain ⟨project, loaded, passes⟩ := exists_loaded (.default "") forkFiles
    (fun project =>
      ((project.select ["a+", "+c"] ["b+"]).toOption.any fun ids => decide (ids =
        NameSet.ofList ["model.modelflow_project.a", "model.modelflow_project.d"])) &&
      (project.select ["+"] []).toOption.isNone)
    (by decide +kernel)
  obtain ⟨selected, refused⟩ := (Bool.and_eq_true _ _).mp passes
  obtain ⟨-, means, -, repeats⟩ := select_means loaded ["a+", "+c"] ["b+"]
  obtain ⟨refuses, -⟩ := select_means loaded ["+"] []
  refine ⟨project, loaded, ?_, ?_⟩
  · cases run : project.select ["a+", "+c"] ["b+"] with
    | error _ =>
      rw [run] at selected
      cases selected
    | ok ids =>
      rw [run] at selected
      refine ⟨ids, of_decide_eq_true selected, rfl, ?_, means ids run⟩
      exact repeats _ _ (by grind) (by grind) ids run
  · apply refuses.mp
    cases run : project.select ["+"] [] with
    | error error => exact ⟨error, rfl⟩
    | ok _ =>
      rw [run] at refused
      cases refused

end Project
end SqlPipeline
