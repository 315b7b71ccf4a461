import SqlPipeline.Proofs.Model.Block
import SqlPipeline.Proofs.Model.Loading
import SqlPipeline.Template.Parser

/-!
# Comments and raw sections

A rendered template leaves comments out and takes raw sections as they stand, but the search for
blocks does not know them: what is put between their marks says what it says without the marks.
Commenting out a part of a model therefore neither breaks a project nor changes its graph and
settings, and it does not take back what the part reads either.
-/

namespace SqlPipeline

open Text

/-- The kinds of text that rendering does not evaluate. -/
inductive Unevaluated where
  | comment
  | raw
deriving DecidableEq

namespace Unevaluated

/-- The mark before the text. -/
def opening : Unevaluated → String
  | comment => "\x7b#"
  | raw => "\x7b% raw %\x7d"

/-- The mark after the text. -/
def closing : Unevaluated → String
  | comment => "#\x7d"
  | raw => "\x7b% endraw %\x7d"

/-- A text between its marks. -/
def wrap (kind : Unevaluated) (part : String) : String := kind.opening ++ part ++ kind.closing

theorem undoubled_opening (kind : Unevaluated) : Undoubled '\x7b' kind.opening.toList := by
  cases kind <;> decide +kernel

theorem undoubled_closing (kind : Unevaluated) : Undoubled '\x7b' kind.closing.toList := by
  cases kind <;> decide +kernel

end Unevaluated

namespace ModelCalls

/-- The marks of a section do not change what the text between them says. -/
theorem ofText_wrap (kind : Unevaluated) {front part : String} (before : Closed front.toList)
    (inside : Closed part.toList) (back : String) :
    ofText (front ++ kind.wrap part ++ back) = ofText front ++ ofText part ++ ofText back := by
  have opened := Closed.text kind.undoubled_opening
  have closed := Closed.text kind.undoubled_closing
  have wrapped : (kind.wrap part).toList =
      kind.opening.toList ++ part.toList ++ kind.closing.toList := by
    rw [Unevaluated.wrap, String.toList_append, String.toList_append]
  have section_closed : Closed (kind.wrap part).toList := by
    rw [wrapped]
    exact (opened.append inside).append closed
  have same : ofText (kind.wrap part) = ofText part := by
    have opened_inside : Closed (kind.opening ++ part).toList := by
      rw [String.toList_append]
      exact opened.append inside
    rw [Unevaluated.wrap, ofText_append opened_inside, ofText_append opened,
      ofText_of_undoubled kind.undoubled_opening, ofText_of_undoubled kind.undoubled_closing,
      empty_append, append_empty]
  rw [String.append_assoc, ofText_append before, ofText_append section_closed, same, append_assoc]

end ModelCalls

namespace Project

variable {settings : Settings} {before after : List (FilePath × String)} {path : FilePath}
  {name : String}

theorem Rewritten.edge_iff {files changed_files : List (FilePath × String)}
    {project changed : Project} {id text : String} (rewritten : Rewritten id text project changed)
    (loaded : ofSources settings files = .ok project)
    (reloaded : ofSources settings changed_files = .ok changed) (parent child : String) :
    changed.graph.Edge parent child ↔ project.graph.Edge parent child := by
  rw [Project.edge_iff loaded, Project.edge_iff reloaded]
  constructor
  · rintro ⟨model, found, reads⟩
    by_cases same : child = id
    · obtain ⟨old, held, new⟩ := rewritten.changed
      rw [same, new] at found
      cases found
      exact ⟨old, same ▸ held, reads⟩
    · exact ⟨model, (rewritten.others child same).symm.trans found, reads⟩
  · rintro ⟨model, found, reads⟩
    obtain ⟨sql, digest, new⟩ := rewritten.exists_get? found
    exact ⟨_, new, reads⟩

/-- Commenting out a part of a model, or making it a raw section, changes nothing but the text: the
project loads if and only if it did, with the same graph and settings, and the part says what it
said. -/
theorem inert_marks (kind : Unevaluated) {front part back : String}
    (named : path.fileStem? = some name) (closed : ModelCalls.Closed front.toList)
    (inside : ModelCalls.Closed part.toList) :
    let plain := front ++ part ++ back
    let marked := front ++ kind.wrap part ++ back
    ModelCalls.ofText marked =
        ModelCalls.ofText front ++ ModelCalls.ofText part ++ ModelCalls.ofText back ∧
      (∀ project, ofSources settings (before ++ (path, plain) :: after) = .ok project →
        ∃ changed, ofSources settings (before ++ (path, marked) :: after) = .ok changed ∧
          Rewritten (modelId settings name) marked project changed ∧
          ∀ parent child, changed.graph.Edge parent child ↔ project.graph.Edge parent child) ∧
      ∀ error, ofSources settings (before ++ (path, plain) :: after) = .error error →
        ∃ error, ofSources settings (before ++ (path, marked) :: after) = .error error := by
  intro plain marked
  have unmarked : ModelCalls.ofText plain =
      ModelCalls.ofText front ++ ModelCalls.ofText part ++ ModelCalls.ofText back := by
    have joined : ModelCalls.Closed (front ++ part).toList := by
      rw [String.toList_append]
      exact closed.append inside
    rw [ModelCalls.ofText_append joined, ModelCalls.ofText_append closed]
  have same := ModelCalls.ofText_wrap kind closed inside back
  refine ⟨same, fun project loaded => ?_, fun error failed => ?_⟩
  · obtain ⟨changed, reloaded, rewritten⟩ :=
      exists_rewritten named (unmarked.trans same.symm) loaded
    exact ⟨changed, reloaded, rewritten, rewritten.edge_iff loaded reloaded⟩
  · cases marks : ofSources settings (before ++ (path, marked) :: after) with
    | error other => exact ⟨other, rfl⟩
    | ok changed =>
      obtain ⟨project, loaded, -⟩ := exists_rewritten named (same.trans unmarked.symm) marks
      rw [failed] at loaded
      cases loaded

/-- A comment that names a model makes an edge. -/
theorem inert_marks_comment :
    let part := " \x7b\x7b ref('a') \x7d\x7d "
    let text := "select 1 " ++ Unevaluated.comment.wrap part ++ ""
    ∃ project,
      ofSources (Settings.default "") [("models/b.sql", text), ("models/a.sql", "select 1")] =
        .ok project ∧
      project.graph.Edge "model.modelflow_project.a" "model.modelflow_project.b" := by
  intro part text
  have closed : ModelCalls.Closed part.toList := by
    have blanks : Undoubled '\x7b' [' '] := by decide
    have inside : Undoubled '\x7d' " ref('a') ".toList := by decide +kernel
    have spelled : part.toList =
        [' '] ++ (ModelCalls.opening ++ " ref('a') ".toList ++ ModelCalls.closing ++ [' ']) := by
      decide +kernel
    rw [spelled]
    exact .block blanks inside (.text blanks)
  have plain : ModelCalls.Closed "select 1 ".toList := .text (by decide +kernel)
  have named : FilePath.fileStem? "models/b.sql" = some "b" := by decide
  obtain ⟨project, loaded, passes⟩ := exists_loaded (Settings.default "")
    ([] ++ (.text "models/b.sql", "select 1 " ++ part ++ "") ::
      [(.text "models/a.sql", "select 1")])
    (fun project : Project =>
      (project.get? "model.modelflow_project.b").any fun model : Model =>
        decide ("model.modelflow_project.a" ∈ model.dependsOn)) (by decide +kernel)
  obtain ⟨model, found, reads⟩ := (Option.any_eq_true _ _).mp passes
  obtain ⟨-, kept, -⟩ := inert_marks .comment named plain closed
  obtain ⟨changed, reloaded, -, edges⟩ := kept project loaded
  refine ⟨changed, reloaded, (edges _ _).mpr ((edge_iff loaded).mpr ⟨model, found, ?_⟩)⟩
  exact of_decide_eq_true reads

/-- A comment renders to nothing, but a model that it names and that is not there is missed when the
project loads. -/
theorem comment_reads_missing :
    let text := "\x7b# \x7b\x7b ref('missing') \x7d\x7d #\x7d"
    (Template.parse text).toOption.any List.isEmpty = true ∧
      ModelCalls.ofText text = ⟨[.model none "missing"], .empty⟩ ∧
      ofSources (Settings.default "") [("models/a.sql", text)] =
        .error (.unknownRef "a" "missing") := by
  intro text
  exact ⟨by decide +kernel, by decide +kernel, ofSources_eq_error (by decide +kernel)⟩

end Project
end SqlPipeline
