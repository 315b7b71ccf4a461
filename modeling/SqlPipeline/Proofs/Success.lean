import Mathlib.Data.List.Forall2

/-!
# Success of chained computations

A chain of computations that may fail succeeds exactly if each of them does, and a traversal of a
list gives the list of what its steps give.
-/

namespace SqlPipeline

theorem bind_eq_ok_iff {ε α β : Type} {first : Except ε α} {next : α → Except ε β} {value : β} :
    (first >>= next) = .ok value ↔ ∃ middle, first = .ok middle ∧ next middle = .ok value := by
  cases first with
  | error error => simp [bind, Except.bind]
  | ok middle => simp [bind, Except.bind]

theorem bind_eq_error_iff {ε α β : Type} {first : Except ε α} {next : α → Except ε β} {error : ε} :
    (first >>= next) = .error error ↔
      first = .error error ∨ ∃ middle, first = .ok middle ∧ next middle = .error error := by
  cases first with
  | error error => simp [bind, Except.bind]
  | ok middle => simp [bind, Except.bind]

theorem exists_of_isOk {ε α : Type} {run : Except ε α} (succeeds : run.isOk = true) :
    ∃ value, run = .ok value := by
  cases run with
  | error error => cases succeeds
  | ok value => exact ⟨value, rfl⟩

theorem exists_of_any {ε α : Type} {run : Except ε α} {test : α → Bool}
    (passes : run.toOption.any test = true) : ∃ value, run = .ok value ∧ test value = true := by
  cases run with
  | error error => cases passes
  | ok value => exact ⟨value, rfl, passes⟩

theorem eq_error_of_map {ε α β : Type} {run : Except ε α} {change : α → β} {error : ε}
    (fails : run.map change = .error error) : run = .error error := by
  cases run with
  | error other => exact congrArg Except.error (Except.error.inj fails)
  | ok value => cases fails

theorem mapError_eq_ok_iff {ε ε' α : Type} {describe : ε → ε'} {run : Except ε α} {value : α} :
    run.mapError describe = .ok value ↔ run = .ok value := by
  cases run <;> simp [Except.mapError]

/-- The result of a chain follows from that of another one if it does after the first step. -/
theorem bind_eq_map_bind {α β γ : Type} {first : Option α} {next : α → Option β}
    {other : α → Option γ} {adapt : β → γ}
    (each : ∀ value, other value = (next value).map adapt) :
    (first >>= other) = (first >>= next).map adapt := by
  cases first with
  | none => rfl
  | some value => exact each value

/-- A traversal succeeds exactly if each step does. -/
theorem mapM_eq_ok_iff_forall₂ {ε α β : Type} {step : α → Except ε β} {items : List α}
    {results : List β} : items.mapM step = .ok results ↔
      List.Forall₂ (fun item result => step item = .ok result) items results := by
  induction items generalizing results with
  | nil => simp [pure, Except.pure, eq_comm]
  | cons item items ih =>
    rw [List.mapM_cons, bind_eq_ok_iff]
    simp only [bind_eq_ok_iff, ih, List.forall₂_cons_left_iff]
    constructor
    · rintro ⟨result, first, rest, others, same⟩
      cases same
      exact ⟨result, rest, first, others, rfl⟩
    · rintro ⟨result, rest, first, others, rfl⟩
      exact ⟨result, first, rest, others, rfl⟩

/-- A traversal of steps that may have no result has one exactly if each step does. -/
theorem mapM_option_eq_some_iff {α β : Type} {step : α → Option β} {items : List α}
    {results : List β} : items.mapM step = some results ↔
      List.Forall₂ (fun item result => step item = some result) items results := by
  induction items generalizing results with
  | nil => simp [eq_comm]
  | cons item items ih =>
    rw [List.mapM_cons, Option.bind_eq_bind, Option.bind_eq_some_iff]
    simp only [Option.bind_eq_bind, Option.bind_eq_some_iff, ih, List.forall₂_cons_left_iff]
    constructor
    · rintro ⟨result, first, rest, others, same⟩
      cases same
      exact ⟨result, rest, first, others, rfl⟩
    · rintro ⟨result, rest, first, others, rfl⟩
      exact ⟨result, first, rest, others, rfl⟩

/-- A traversal fails with the fault of one of its steps. -/
theorem exists_of_mapM_eq_error {ε α β : Type} {step : α → Except ε β} {items : List α} {error : ε}
    (failed : items.mapM step = .error error) : ∃ item ∈ items, step item = .error error := by
  induction items with
  | nil => cases failed
  | cons item items ih =>
    rw [List.mapM_cons] at failed
    rcases bind_eq_error_iff.mp failed with here | ⟨_, -, failed⟩
    · exact ⟨item, List.mem_cons_self, here⟩
    · rcases bind_eq_error_iff.mp failed with later | ⟨_, -, done⟩
      · obtain ⟨other, listed, fails⟩ := ih later
        exact ⟨other, List.mem_cons_of_mem item listed, fails⟩
      · cases done

/-- If every success is a value of a function, a traversal that succeeds maps that function. -/
theorem mapM_eq_ok_iff {ε α β : Type} {step : α → Except ε β} {passes : α → Prop} {value : α → β}
    (each : ∀ item result, step item = .ok result ↔ passes item ∧ result = value item)
    {items : List α} {results : List β} :
    items.mapM step = .ok results ↔ (∀ item ∈ items, passes item) ∧ results = items.map value := by
  have same : List.Forall₂ (fun item result => result = value item) items results ↔
      results = items.map value := by
    rw [@eq_comm _ results, ← List.forall₂_eq_eq_eq, List.forall₂_map_left_iff]
    simp only [eq_comm]
  rw [mapM_eq_ok_iff_forall₂, ← same]
  simp only [each]
  exact List.forall₂_and_left _ _

end SqlPipeline
