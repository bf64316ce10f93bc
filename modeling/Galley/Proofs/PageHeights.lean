import Galley.Proofs.AlikeComposers
import Galley.Proofs.FilledPages
import Galley.Proofs.FormatReport

/-! # Page heights only add marks and drop skips

The height of pages is known to the pages alone, so the main text is composed in the same rows
whatever it is (`Galley.rowTexts_withHeight`). Pages keep all of them that are not empty in their
order. So documents that differ only in the height that the main text starts with are formatted in
the same lines of text, with the same problem and the same warnings (`Galley.format_any_height`).
-/

namespace Galley

open Composer (Action)

/-- Presets with another height of pages. -/
def Presets.withHeight (presets : Presets) (height : Option Nat) : Presets :=
  { presets with main := { presets.main with textHeight := height } }

/-- Lines without page marks, where lines that this leaves empty are left out. -/
def visibleLines (lines : List (List Char)) : List (List Char) :=
  (lines.map (List.filter (· ≠ pageBreak))).filter (· ≠ [])

/-! ## Lines of text -/

theorem PageLine.unmarked_render (line : PageLine) :
    line.render.filter (· ≠ pageBreak) = line.text.filter (· ≠ pageBreak) := by
  unfold render
  split
  · exact List.filter_cons_of_neg (by simp)
  · rfl

theorem visibleLines_filter (texts : List (List Char)) :
    visibleLines (texts.filter (· ≠ [])) = visibleLines texts := by
  induction texts with
  | nil => rfl
  | cons text rest ih =>
      unfold visibleLines at ih ⊢
      by_cases empty : text = []
      · rw [List.filter_cons_of_neg (by simpa using empty), ih, empty]
        rfl
      · rw [List.filter_cons_of_pos (by simpa using empty), List.map_cons, List.map_cons,
          List.filter_cons, List.filter_cons, ih]

/-- What is visible of pages are their lines of text. -/
theorem Pages.visibleLines_lines (pages : Pages) :
    visibleLines pages.lines = visibleLines pages.textLines := by
  rw [textLines, visibleLines_filter, lines, visibleLines, visibleLines, List.map_map,
    List.map_map]
  congr 2
  exact funext PageLine.unmarked_render

/-! ## The texts that are paged -/

/-- The texts of the rows of a document: those of the main text and then the endnotes. -/
def composedTexts (presets : Presets) (units : List Lexeme) : List (List Char) :=
  (Stream.new presets.main).rowTexts (mainActions 1 units ++ [.endParagraph]) ++
    (noteStream presets (noteBodies units)).pages.lines

/-- The main text is composed in the same rows for pages of any height. -/
theorem rowTexts_withHeight (presets : Presets) (first second : Option Nat)
    (actions : List Action) :
    (Stream.new (presets.withHeight first).main).rowTexts actions =
      (Stream.new (presets.withHeight second).main).rowTexts actions := by
  have alike : Composer.Alike True (.new (presets.withHeight first).main)
      (.new (presets.withHeight second).main) :=
    ⟨⟨rfl, rfl, rfl, rfl, rfl, fun _ => rfl⟩, rfl, rfl, rfl, rfl⟩
  have rows := (alike.run actions).rows.imp fun _ _ row => row.eq trivial
  rw [List.forall₂_eq_eq_eq] at rows
  exact congrArg (List.map Row.text) rows

theorem composedTexts_withHeight (presets : Presets) (first second : Option Nat)
    (units : List Lexeme) :
    composedTexts (presets.withHeight first) units =
      composedTexts (presets.withHeight second) units := by
  rw [composedTexts, rowTexts_withHeight presets first second]
  rfl

theorem textLines_composedPages (presets : Presets) (units : List Lexeme) :
    (composedPages presets units).textLines = (composedTexts presets units).filter (· ≠ []) := by
  rw [composedPages, Pages.textLines_addAll, mainStream, Stream.textLines_run, composedTexts,
    List.filter_append]
  rfl

/-- The name of the command that a lexeme is. -/
def Lexeme.commandName? : Lexeme → Option (List Char)
  | .command name _ => some name
  | _ => none

/-- No command of the main text is for the height of pages. -/
def HeightUnset (units : List Lexeme) : Prop :=
  ∀ unit ∈ units, unit.commandName? ≠ some (Command.measure .textHeight).name.toList

instance (units : List Lexeme) : Decidable (HeightUnset units) :=
  inferInstanceAs (Decidable (∀ unit ∈ units, _ ≠ _))

theorem Command.eq_measure_of_mem_actions {command : Command} {argument : Option (List Char)}
    {kind : Measure} {value : Nat}
    (asked : Action.change (.measure kind value) ∈ command.actions argument) :
    command = .measure kind := by
  cases command with
  | measure other =>
      rw [actions, Option.mem_toList, Option.map_eq_some_iff] at asked
      obtain ⟨_, _, same⟩ := asked
      cases same
      rfl
  | switch other on => simp [actions] at asked
  | endnote => simp [actions] at asked

theorem Lexeme.commandName?_of_mem_actions {unit : Lexeme} {kind : Measure} {value : Nat}
    (asked : Action.change (.measure kind value) ∈ unit.actions) :
    unit.commandName? = some (Command.measure kind).name.toList := by
  cases unit with
  | command name argument =>
      rw [actions] at asked
      cases named : Command.ofName? name with
      | none => simp [named] at asked
      | some known =>
          rw [named, Option.map_some, Option.getD_some] at asked
          rw [Command.eq_measure_of_mem_actions asked, Command.ofName?_eq_some_iff] at named
          exact congrArg some named
  | _ => simp [actions] at asked

theorem textHeight_not_mem_mainActions {units : List Lexeme} (unset : HeightUnset units)
    (number height : Nat) :
    Action.change (.measure .textHeight height) ∉ mainActions number units := by
  induction units generalizing number with
  | nil => exact List.not_mem_nil
  | cons unit units ih =>
      obtain ⟨first, rest⟩ := List.forall_mem_cons.mp unset
      have later := ih rest
      unfold mainActions
      split
      · simp [later]
      · intro member
        rcases List.mem_append.mp member with asked | asked
        · exact first (Lexeme.commandName?_of_mem_actions asked)
        · exact later _ asked

/-- Unless a command sets the height of pages, a document is paged in one go. -/
theorem held_composedPages {presets : Presets} {units : List Lexeme}
    (unset : HeightUnset units) :
    (composedPages presets units).held.toList =
      (Pages.new presets.main.textHeight).laid (composedTexts presets units) := by
  have fixed (height : Nat) : Action.change (.measure .textHeight height) ∉
      mainActions 1 units ++ [.endParagraph] := by
    simp [textHeight_not_mem_mainActions unset]
  rw [composedPages, mainStream, Stream.pages_run fixed, ← Pages.addAll_append, Pages.held_addAll]
  rfl

/-! ## Formatting -/

/-- What is formatted for two heights of pages: the same problem, or the same lines but for page
marks and empty lines, and the same warnings. -/
structure SameText (first second : Report (List (List Char))) : Prop where
  outcomes : first.outcome.map visibleLines = second.outcome.map visibleLines
  warnings : first.warnings = second.warnings

/-- Lines that are put on pages: without their page marks they are those of pages without bound,
where some empty lines may be missing. -/
structure PagedFrom (unbounded : List (List Char)) (paged : List PageLine) : Prop where
  in_order : (paged.map PageLine.text).Sublist unbounded
  texts_kept : (paged.map PageLine.text).filter (· ≠ []) = unbounded.filter (· ≠ [])

/-- **Heights of pages do not change the text.** A document is formatted in the same lines of text
for any two heights that the main text starts with. If the first is unbounded and no command sets
another, then the lines for the second are those for the first but for the page marks that are added
and for empty lines that are dropped. -/
theorem format_any_height {presets : Presets} {first second : Option Nat}
    (valid : (presets.withHeight first).Valid) (validOther : (presets.withHeight second).Valid)
    (source : List Char) :
    SameText (format (presets.withHeight first) source)
        (format (presets.withHeight second) source) ∧
      ∀ lines, (format (presets.withHeight first) source).outcome = .ok lines →
        first = none → HeightUnset (lexemes source) →
          (format (presets.withHeight second) source).outcome =
              .ok ((pageLines (presets.withHeight second) source).map PageLine.render) ∧
            PagedFrom lines (pageLines (presets.withHeight second) source) := by
  have texts := composedTexts_withHeight presets first second (lexemes source)
  refine ⟨⟨?_, ?_⟩, ?_⟩
  · rw [outcome_format_eq valid, outcome_format_eq validOther]
    split
    · rfl
    · simp only [Except.map, Pages.visibleLines_lines, textLines_composedPages, texts]
  · apply Array.toList_inj.mp
    rw [warnings_format valid, warnings_format validOther]
  · rintro lines formatted rfl unset
    rw [outcome_format_eq valid] at formatted
    cases clean : firstProblem? .normal (tokens source) with
    | some problem => simp [clean] at formatted
    | none =>
        rw [clean] at formatted
        have unbounded : lines = composedTexts (presets.withHeight none) (lexemes source) := by
          rw [← Except.ok.inj formatted, Pages.lines, held_composedPages unset,
            Pages.laid_of_unbounded rfl, List.map_map]
          exact List.map_id' _
        have paged : pageLines (presets.withHeight second) source =
            (Pages.new second).laid lines := by
          rw [pageLines_eq validOther clean, held_composedPages unset, unbounded, texts]
          rfl
        rw [outcome_format_eq validOther, clean, paged]
        refine ⟨?_, Pages.sublist_laid _ _, Pages.inhabited_laid _ _⟩
        rw [← paged, pageLines_eq validOther clean]
        rfl

/-- On pages of two lines a second paragraph starts a page, and the skip before it is dropped. -/
theorem format_any_height_of_two :
    let source := "\\textwidth\x7b7\x7dto be\n\nor".toList
    let paged := pageLines (Presets.default.withHeight (some 2)) source
    paged = [⟨false, "   to".toList⟩, ⟨false, "be".toList⟩, ⟨true, "   or".toList⟩] ∧
      PagedFrom ["   to".toList, "be".toList, [], "   or".toList] paged := by
  intro source paged
  have unbounded : (Presets.default.withHeight none).Valid := Presets.invalid?_eq_none_iff.mp rfl
  have bounded : (Presets.default.withHeight (some 2)).Valid :=
    Presets.invalid?_eq_none_iff.mp rfl
  obtain ⟨-, paging⟩ := format_any_height unbounded bounded source
  refine ⟨by decide +kernel, (paging _ ?_ rfl ?_).2⟩
  · decide +kernel
  · decide +kernel

end Galley
