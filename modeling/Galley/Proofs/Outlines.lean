import Galley.Proofs.PlainText

/-! # Outlines of plain text

The outline of plain text are its paragraphs, with the words on each of their lines; paragraphs and
lines without words do not count. What plain text is composed in depends on its outline alone
(`Galley.Composer.run_outline`).
-/

namespace Galley

open Composer (Action)

/-! ## Reading an outline -/

/-- Put an item in front of others unless it is empty. -/
def consInhabited {α : Type} (item : List α) (items : List (List α)) : List (List α) :=
  if item = [] then items else item :: items

/-- The outline of a text that starts in the middle of a line. -/
structure OpenOutline where
  /-- The words up to the end of that line. -/
  line : List (List Char)
  /-- The later lines of that paragraph. -/
  lines : List (List (List Char))
  /-- The later paragraphs. -/
  paragraphs : List (List (List (List Char)))

/-- The paragraphs of an outline. -/
def OpenOutline.close (outline : OpenOutline) : List (List (List (List Char))) :=
  consInhabited (consInhabited outline.line outline.lines) outline.paragraphs

/-- The outline that lexemes without markup spell. -/
def outlineFrom : List Lexeme → OpenOutline
  | [] => ⟨[], [], []⟩
  | .text run :: rest => { outlineFrom rest with line := run :: (outlineFrom rest).line }
  | .lineBreak _ :: rest =>
      ⟨[], consInhabited (outlineFrom rest).line (outlineFrom rest).lines,
        (outlineFrom rest).paragraphs⟩
  | .paragraphBreak _ _ _ :: rest => ⟨[], [], (outlineFrom rest).close⟩
  | _ :: rest => outlineFrom rest

/-- The paragraphs that lexemes without markup spell. -/
def outline (units : List Lexeme) : List (List (List (List Char))) :=
  (outlineFrom units).close

/-- Paragraphs of lines of words, none of which is empty. -/
def Inhabited (paragraphs : List (List (List (List Char)))) : Prop :=
  ∀ lines ∈ paragraphs, lines ≠ [] ∧ ∀ words ∈ lines, words ≠ [] ∧ ∀ word ∈ words, IsWord word

@[simp] theorem consInhabited_nil {α : Type} (items : List (List α)) :
    consInhabited [] items = items := rfl

theorem consInhabited_of_ne_nil {α : Type} {item : List α} (inhabited : item ≠ [])
    (items : List (List α)) : consInhabited item items = item :: items :=
  if_neg inhabited

theorem mem_consInhabited {α : Type} {item other : List α} {items : List (List α)}
    (member : other ∈ consInhabited item items) : other = item ∧ item ≠ [] ∨ other ∈ items := by
  unfold consInhabited at member
  split at member
  · exact Or.inr member
  · rename_i inhabited
    exact (List.mem_cons.mp member).imp_left fun same => ⟨same, inhabited⟩

theorem OpenOutline.inhabited_close {outline : OpenOutline}
    (line : ∀ word ∈ outline.line, IsWord word)
    (lines : ∀ words ∈ outline.lines, words ≠ [] ∧ ∀ word ∈ words, IsWord word)
    (paragraphs : Inhabited outline.paragraphs) : Inhabited outline.close := by
  intro paragraph member
  rcases mem_consInhabited member with ⟨rfl, inhabited⟩ | later
  · refine ⟨inhabited, fun words among => ?_⟩
    rcases mem_consInhabited among with ⟨rfl, filled⟩ | later
    · exact ⟨filled, line⟩
    · exact lines words later
  · exact paragraphs paragraph later

/-- What lexemes without markup spell has no empty parts. -/
theorem inhabited_outline {units : List Lexeme} (unmarked : ∀ unit ∈ units, unit.Unmarked) :
    Inhabited (outline units) := by
  have parts : (∀ word ∈ (outlineFrom units).line, IsWord word) ∧
      (∀ words ∈ (outlineFrom units).lines, words ≠ [] ∧ ∀ word ∈ words, IsWord word) ∧
      Inhabited (outlineFrom units).paragraphs := by
    induction units with
    | nil => exact ⟨by simp [outlineFrom], by simp [outlineFrom], by simp [outlineFrom, Inhabited]⟩
    | cons unit units ih =>
        obtain ⟨first, later⟩ := List.forall_mem_cons.mp unmarked
        obtain ⟨line, lines, paragraphs⟩ := ih later
        cases first with
        | blank run => exact ⟨line, lines, paragraphs⟩
        | text word => exact ⟨List.forall_mem_cons.mpr ⟨word, line⟩, lines, paragraphs⟩
        | lineBreak lineEnd =>
            refine ⟨by simp [outlineFrom], fun words among => ?_, paragraphs⟩
            rcases mem_consInhabited among with ⟨rfl, filled⟩ | later
            · exact ⟨filled, line⟩
            · exact lines words later
        | paragraphBreak firstEnd second more =>
            exact ⟨by simp [outlineFrom], by simp [outlineFrom],
              OpenOutline.inhabited_close line lines paragraphs⟩
  exact OpenOutline.inhabited_close parts.1 parts.2.1 parts.2.2

/-! ## Composing an outline -/

namespace Composer

/-- Add the words of a line and end it. -/
def lineActions (words : List (List Char)) : List Action :=
  words.map .addWord ++ [.endLine]

/-- Add the lines of a paragraph and end it. -/
def paragraphActions (lines : List (List (List Char))) : List Action :=
  lines.flatMap lineActions ++ [.endParagraph]

theorem change_not_mem_paragraphActions (lines : List (List (List Char))) (change : Change) :
    Action.change change ∉ paragraphActions lines := by
  simp [paragraphActions, lineActions]

theorem paragraphActions_cons (words : List (List Char)) (lines : List (List (List Char))) :
    paragraphActions (words :: lines) = lineActions words ++ paragraphActions lines :=
  List.append_assoc ..

/-- Add an outline that starts in the middle of a line. -/
def openActions (outline : OpenOutline) : List Action :=
  lineActions outline.line ++ paragraphActions outline.lines ++
    outline.paragraphs.flatMap paragraphActions

theorem emitPlain_of_nil {composer : Composer} (empty : composer.words = []) :
    composer.emitPlain = (composer, []) :=
  if_pos empty

theorem words_emitPlain (composer : Composer) : composer.emitPlain.1.words = [] := by
  unfold emitPlain
  split
  · assumption
  · rfl

theorem endLine_of_nil {composer : Composer} (empty : composer.words = []) :
    composer.endLine = (composer, []) := by
  rw [endLine, emitPlain_of_nil empty, ite_self]

theorem endParagraph_of_whole {composer : Composer} (whole : composer.word = []) :
    composer.endParagraph =
      ({ composer.emitPlain.1 with opensParagraph := true }, composer.emitPlain.2) := by
  rw [endParagraph, finishWord, if_pos whole, List.nil_append]

section Rules

variable (composer : Composer) (rest : List Action)

/-- A line that has ended does not end again. -/
theorem run_endLine_endLine :
    composer.run (.endLine :: .endLine :: rest) = composer.run (.endLine :: rest) := by
  have quiet : composer.endLine.1.endLine = (composer.endLine.1, []) := by
    by_cases fill : composer.settings.fill
    · have same : composer.endLine = (composer, []) := if_pos fill
      rw [same, same]
    · have ended : composer.endLine = composer.emitPlain := if_neg fill
      rw [ended, endLine_of_nil composer.words_emitPlain]
  simp [run, step, quiet]

/-- The end of a paragraph ends its last line. -/
theorem run_endLine_endParagraph {composer : Composer} (whole : composer.word = []) :
    composer.run (.endLine :: .endParagraph :: rest) = composer.run (.endParagraph :: rest) := by
  by_cases fill : composer.settings.fill
  · have same : composer.endLine = (composer, []) := if_pos fill
    simp [run, step, same]
  · have ended : composer.endLine = composer.emitPlain := if_neg fill
    have wholeAfter : composer.emitPlain.1.word = [] := composer.word_emitPlain.trans whole
    simp [run, step, ended, endParagraph_of_whole whole, endParagraph_of_whole wholeAfter,
      emitPlain_of_nil composer.words_emitPlain]

theorem run_endParagraph_endLine :
    composer.run (.endParagraph :: .endLine :: rest) = composer.run (.endParagraph :: rest) := by
  simp [run, step, endLine_of_nil composer.idle_endParagraph.1]

theorem run_endParagraph_endParagraph :
    composer.run (.endParagraph :: .endParagraph :: rest) =
      composer.run (.endParagraph :: rest) := by
  have quiet : composer.endParagraph.1.endParagraph = (composer.endParagraph.1, []) := by
    rw [endParagraph_of_whole composer.idle_endParagraph.2,
      emitPlain_of_nil composer.idle_endParagraph.1]
    rfl
  simp [run, step, quiet]

end Rules

/-- Behind the end of a paragraph, an open outline is composed as its paragraphs are. -/
theorem run_openActions (composer : Composer) (outline : OpenOutline) :
    composer.run (.endParagraph :: openActions outline) =
      composer.run (.endParagraph :: outline.close.flatMap paragraphActions) := by
  obtain ⟨line, lines, paragraphs⟩ := outline
  by_cases unfilled : line = []
  · cases unfilled
    refine (composer.run_endParagraph_endLine _).trans ?_
    by_cases empty : lines = []
    · cases empty
      exact composer.run_endParagraph_endParagraph _
    · rw [OpenOutline.close, consInhabited_nil, consInhabited_of_ne_nil empty]
      rfl
  · rw [OpenOutline.close, consInhabited_of_ne_nil unfilled,
      consInhabited_of_ne_nil (List.cons_ne_nil _ _), List.flatMap_cons, paragraphActions_cons]
    rfl

theorem run_outlineFrom {units : List Lexeme} (unmarked : ∀ unit ∈ units, unit.Unmarked)
    {composer : Composer} (whole : composer.word = []) :
    composer.run (units.flatMap Lexeme.wordActions ++ [.endParagraph]) =
      composer.run (openActions (outlineFrom units)) := by
  induction units generalizing composer with
  | nil => exact (run_endLine_endParagraph [] whole).symm
  | cons unit units ih =>
      obtain ⟨first, later⟩ := List.forall_mem_cons.mp unmarked
      have next (action : Action) (quiet : action.building composer.word = []) :
          composer.run (action :: (units.flatMap Lexeme.wordActions ++ [.endParagraph])) =
            composer.run (action :: openActions (outlineFrom units)) := by
        have wholeAfter : (composer.step action).1.word = [] :=
          (composer.word_step action).trans quiet
        rw [run, run, ih later wholeAfter]
      cases first with
      | blank run => exact ih later whole
      | text word => exact next (.addWord _) whole
      | lineBreak lineEnd =>
          refine (next .endLine whole).trans ?_
          by_cases unfilled : (outlineFrom units).line = []
          · rw [outlineFrom, openActions, unfilled]
            exact composer.run_endLine_endLine _
          · rw [outlineFrom, consInhabited_of_ne_nil unfilled, openActions, openActions,
              paragraphActions_cons]
            rfl
      | paragraphBreak firstEnd second more =>
          refine (next .endParagraph rfl).trans ?_
          rw [run_openActions]
          exact (run_endLine_endParagraph _ whole).symm

/-- A composer between two paragraphs, or before the first. -/
def between (settings : Settings) (untouched : Bool) : Composer where
  settings := settings
  word := []
  words := []
  opensParagraph := true
  untouched := untouched

/-- **What plain text is composed in depends on its outline.** -/
theorem run_outline {units : List Lexeme} (unmarked : ∀ unit ∈ units, unit.Unmarked)
    (settings : Settings) (untouched : Bool) :
    (between settings untouched).run (units.flatMap Lexeme.wordActions ++ [.endParagraph]) =
      (between settings untouched).run ((outline units).flatMap paragraphActions) := by
  have skip (actions : List Action) :
      (between settings untouched).run (.endParagraph :: actions) =
        (between settings untouched).run actions := rfl
  rw [run_outlineFrom unmarked rfl, ← skip, run_openActions, skip]
  rfl

end Composer

end Galley
