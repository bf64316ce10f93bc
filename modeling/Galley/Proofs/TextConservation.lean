import Mathlib.Control.Monad.Basic
import Galley.Proofs.FormattedLines

/-! # Text is conserved

Blanks and page marks apart, the lines of a document show its main text with a reference for each
endnote, and then the endnotes with their labels, each of which starts a line
(`Galley.format_conserves_text`).
-/

namespace Galley

open Composer (Action finishedWords)

/-- The characters that a lexeme puts into the text. -/
def Lexeme.plain : Lexeme → List Char
  | .escaped char => [char]
  | .text run => run
  | _ => []

/-- The text that lexemes spell. -/
def plainText (units : List Lexeme) : List Char :=
  units.flatMap Lexeme.plain

/-- The main text that lexemes spell, with the references to endnotes, of which the first has the
given number. -/
def mainText : (number : Nat) → List Lexeme → List Char
  | _, [] => []
  | number, unit :: rest =>
      match unit.noteBody? with
      | some _ => Document.noteMark number ++ mainText (number + 1) rest
      | none => unit.plain ++ mainText number rest

/-- The texts of endnotes with these bodies, each behind its number. -/
def noteTexts : (number : Nat) → (bodies : List (List Char)) → List (List Char)
  | _, [] => []
  | number, body :: rest =>
      (Document.noteMark number ++ plainText (lexemes body)) :: noteTexts (number + 1) rest

theorem noteTexts_append (number : Nat) (first second : List (List Char)) :
    noteTexts number (first ++ second) =
      noteTexts number first ++ noteTexts (number + first.length) second := by
  induction first generalizing number with
  | nil => rfl
  | cons body first ih =>
      simp only [noteTexts, ih, List.cons_append, List.length_cons]
      rw [Nat.add_right_comm, Nat.add_assoc]

/-! ## The text that actions add -/

theorem Lexeme.flatMap_text_actions (unit : Lexeme) :
    unit.actions.flatMap Action.text = unit.plain := by
  cases unit with
  | command name argument =>
      refine List.flatMap_eq_nil_iff.mpr fun action member => ?_
      cases named : Command.ofName? name with
      | none => simp [actions, named] at member
      | some known =>
          simp only [actions, named, Option.map_some, Option.getD_some] at member
          obtain ⟨change, rfl⟩ := Command.eq_change_of_mem_actions member
          rfl
  | _ => simp [actions, plain, Action.text]

theorem flatMap_text_mainActions (number : Nat) (units : List Lexeme) :
    (mainActions number units).flatMap Action.text = mainText number units := by
  induction units generalizing number with
  | nil => rfl
  | cons unit units ih =>
      cases noted : unit.noteBody? with
      | none => simp [mainActions, mainText, noted, ih, unit.flatMap_text_actions]
      | some body => simp [mainActions, mainText, noted, ih, Action.text]

theorem flatMap_text_bodyActions (units : List Lexeme) :
    (bodyActions units).flatMap Action.text = plainText units := by
  have heeded (actions : List Action) :
      (actions.filter Mode.endnote.heeds).flatMap Action.text = actions.flatMap Action.text := by
    induction actions with
    | nil => rfl
    | cons action rest ih =>
        by_cases heeds : Mode.endnote.heeds action
        · rw [List.filter_cons_of_pos heeds, List.flatMap_cons, ih, List.flatMap_cons]
        · have silent : action.text = [] := by
            unfold Mode.heeds at heeds
            split at heeds
            · rfl
            · simp at heeds
          rw [List.filter_cons_of_neg heeds, ih, List.flatMap_cons, silent, List.nil_append]
  rw [bodyActions, heeded, plainText, List.flatMap_assoc]
  exact congrArg (fun spell => units.flatMap spell) (funext Lexeme.flatMap_text_actions)

theorem solid_noteLabel (number : Nat) :
    solid (Document.noteLabel number) = solid (Document.noteMark number) := by
  rw [Document.noteLabel, solid_append, show solid [' '] = [] from rfl, List.append_nil]

/-- A label that is due stands in front of the text of the actions. -/
theorem solid_labelled (number : Nat) (actions : List Action) :
    solid ((labelled (some number) actions).flatMap Action.text) =
      solid (Document.noteMark number ++ actions.flatMap Action.text) := by
  induction actions with
  | nil => simp [labelled, Action.text]
  | cons action rest ih =>
      cases action with
      | addText text => simp [labelled, Action.text, solid_noteLabel]
      | _ => simpa [labelled, Action.text] using ih

theorem solid_noteActions (number : Nat) (body : List Char) :
    solid ((noteActions number body).flatMap Action.text) =
      solid (Document.noteMark number ++ plainText (lexemes body)) := by
  rw [noteActions, List.flatMap_append, solid_append, solid_labelled, flatMap_text_bodyActions]
  exact List.append_nil _

theorem solid_notesActions (number : Nat) (bodies : List (List Char)) :
    solid ((notesActions number bodies).flatMap Action.text) =
      solid (noteTexts number bodies).flatten := by
  induction bodies generalizing number with
  | nil => rfl
  | cons body rest ih =>
      rw [notesActions, List.flatMap_append, solid_append, solid_noteActions, ih, noteTexts,
        List.flatten_cons, ← solid_append]

/-! ## The lines that show it -/

/-- The first word of an endnote starts with its number. -/
theorem finishedWords_noteActions (number : Nat) (body : List Char) :
    ∃ more later, finishedWords [] (noteActions number body) =
      (Document.noteMark number ++ more) :: later := by
  have marked : Document.noteMark number ≠ [] := List.cons_ne_nil _ _
  have gradual (word : List Char) : Action.addWord word ∉ bodyActions (lexemes body) := by
    intro member
    obtain ⟨unit, _, asked⟩ := List.mem_flatMap.mp (List.mem_filter.mp member).1
    exact unit.addWord_not_mem_actions word asked
  unfold noteActions
  generalize bodyActions (lexemes body) = actions at gradual
  induction actions with
  | nil =>
      refine ⟨[], [], ?_⟩
      simp [labelled, finishedWords, Action.finishes, Action.building, marked]
  | cons action rest ih =>
      have gradualRest : ∀ word, Action.addWord word ∉ rest := fun word member =>
        gradual word (List.mem_cons_of_mem _ member)
      cases action with
      | addWord word => exact absurd List.mem_cons_self (gradual word)
      | addText text =>
          obtain ⟨more, later, same⟩ := Composer.finishedWords_of_building
            (List.append_ne_nil_of_left_ne_nil
              (List.append_ne_nil_of_left_ne_nil marked [' ']) text) gradualRest
          refine ⟨[' '] ++ text ++ more, later, ?_⟩
          rw [labelled, List.cons_append, finishedWords]
          simpa only [Action.finishes, Action.building, List.nil_append, Document.noteLabel,
            List.append_assoc] using same
      | _ => exact ih gradualRest

/-- The rows of an endnote are skipped lines and then a line that shows the number of the endnote
behind its margin, with more rows after it. -/
theorem rowTexts_noteActions {stream : Stream} (idle : stream.composer.Idle) (number : Nat)
    (body : List Char) :
    ∃ count margin rest after, stream.rowTexts (noteActions number body) =
      List.replicate count [] ++
        (List.replicate margin ' ' ++ Document.noteMark number ++ rest) :: after := by
  have delivers := stream.composer.delivers_run (noteActions number body)
  have idleAfter := stream.composer.idle_run (labelled (some number) (bodyActions (lexemes body)))
  obtain ⟨more, later, words⟩ := finishedWords_noteActions number body
  have spelled := delivers.words
  rw [idle.1, idle.2, words, List.nil_append, show (stream.composer.run
    (noteActions number body)).1.words = [] from idleAfter.1, List.append_nil] at spelled
  obtain ⟨count, line, tail, after, rows, starts⟩ :=
    Row.exists_first_line delivers.wellSet spelled
  obtain ⟨rest, joined⟩ := Line.joinWords_cons (Document.noteMark number ++ more) tail line.gaps
  refine ⟨count, line.indentation, more ++ rest, after.map Row.text, ?_⟩
  rw [Stream.rowTexts, rows, List.map_append, List.map_replicate, List.map_cons]
  simp only [Row.text, Line.render, starts, joined, List.append_assoc]

theorem idle_notesActions {stream : Stream} (idle : stream.composer.Idle) (number : Nat)
    (bodies : List (List Char)) :
    (stream.run (notesActions number bodies)).composer.Idle := by
  induction bodies generalizing stream number with
  | nil => exact idle
  | cons body rest ih =>
      rw [notesActions, Stream.run_append]
      refine ih ?_ _
      rw [Stream.composer_run]
      exact Composer.idle_run _ _

theorem solid_rowTexts_notesActions {stream : Stream} (idle : stream.composer.Idle) (number : Nat)
    (bodies : List (List Char)) :
    solid (stream.rowTexts (notesActions number bodies)).flatten =
      solid (noteTexts number bodies).flatten := by
  have after := idle_notesActions idle number bodies
  rw [Stream.composer_run] at after
  rw [← solid_notesActions]
  exact Composer.solid_run_of_idle idle
    (fun word => not_mem_notesActions number bodies (Or.inl ⟨word, rfl⟩)) after

/-- The lines of the main text show the main text with its references. -/
theorem solid_lines_mainStream (presets : Presets) (units : List Lexeme) :
    solid (mainStream presets units).pages.lines.flatten = solid (mainText 1 units) := by
  have gradual (word : List Char) :
      Action.addWord word ∉ mainActions 1 units ++ [Action.endParagraph] := by
    simp [addWord_not_mem_mainActions]
  rw [mainStream, Stream.solid_lines_run, Stream.rowTexts,
    Composer.solid_run_of_idle ⟨rfl, rfl⟩ gradual (Composer.idle_run _ _), List.flatMap_append,
    flatMap_text_mainActions]
  simp [Stream.new, Pages.new, Pages.lines, Action.text]

/-- Whatever pages take the rows of endnotes, each endnote starts a line behind the lines of those
before it. -/
theorem exists_noteLine (pages : Pages) {stream : Stream} (idle : stream.composer.Idle)
    (number : Nat) (earlier : List (List Char)) (body : List Char) (later : List (List Char)) :
    ∃ before line after,
      (pages.addAll (stream.rowTexts (notesActions number (earlier ++ body :: later)))).lines =
        before ++ line :: after ∧
      solid before.flatten = solid pages.lines.flatten ++ solid (noteTexts number earlier).flatten ∧
      ∃ mark margin rest, (mark = [] ∨ mark = [pageBreak]) ∧
        line = mark ++ List.replicate margin ' ' ++
          Document.noteMark (number + earlier.length) ++ rest := by
  obtain ⟨count, margin, rest, rows, first⟩ :=
    rowTexts_noteActions (idle_notesActions idle number earlier) (number + earlier.length) body
  have inhabited :
      List.replicate margin ' ' ++ Document.noteMark (number + earlier.length) ++ rest ≠ [] :=
    List.append_ne_nil_of_left_ne_nil
      (List.append_ne_nil_of_right_ne_nil _ (List.cons_ne_nil _ _)) _
  rw [notesActions_append, notesActions, Stream.rowTexts_append, Stream.rowTexts_append, first,
    List.append_assoc, List.cons_append, ← List.append_assoc, Pages.addAll_append]
  obtain ⟨mark, after, marks, cut⟩ := Pages.lines_addAll_cons
    (pages.addAll (stream.rowTexts (notesActions number earlier) ++ List.replicate count []))
    inhabited _
  refine ⟨_, _, after, cut, ?_, mark, margin, rest, marks, by simp⟩
  rw [Pages.solid_lines_addAll, List.flatten_append, List.flatten_replicate_nil, List.append_nil,
    solid_rowTexts_notesActions idle]

/-- Blanks and page marks apart, lines show the main text of lexemes with its references and then
the endnotes, each behind its number. Every endnote starts a line, on which only a page mark and
blanks stand before its number. -/
structure ShowText (units : List Lexeme) (lines : List (List Char)) : Prop where
  all : solid lines.flatten =
    solid (mainText 1 units ++ (noteTexts 1 (noteBodies units)).flatten)
  starts : ∀ earlier body later, noteBodies units = earlier ++ body :: later →
    ∃ before line after, lines = before ++ line :: after ∧
      solid before.flatten = solid (mainText 1 units ++ (noteTexts 1 earlier).flatten) ∧
      solid (line :: after).flatten =
        solid (noteTexts (1 + earlier.length) (body :: later)).flatten ∧
      ∃ mark margin rest, (mark = [] ∨ mark = [pageBreak]) ∧
        line = mark ++ List.replicate margin ' ' ++
          Document.noteMark (1 + earlier.length) ++ rest

/-- **Text is conserved.** The lines of a formatted document show its text, nothing lost, doubled
or out of order. -/
theorem format_conserves_text {presets : Presets} {source : List Char} {lines : List (List Char)}
    (formatted : (format presets source).outcome = .ok lines) :
    ShowText (lexemes source) lines := by
  have whole := lines_of_format formatted
  rw [lines_noteStream] at whole
  have idle : (emptyNotes presets).composer.Idle := ⟨rfl, rfl⟩
  have shown : solid lines.flatten = solid (mainText 1 (lexemes source) ++
      (noteTexts 1 (noteBodies (lexemes source))).flatten) := by
    rw [whole, Pages.solid_lines_addAll, solid_lines_mainStream,
      solid_rowTexts_notesActions idle, solid_append]
  refine ⟨shown, fun earlier body later bodies => ?_⟩
  rw [bodies] at whole shown
  obtain ⟨before, line, after, cut, preceding, starts⟩ :=
    exists_noteLine (mainStream presets (lexemes source)).pages idle 1 earlier body later
  rw [solid_lines_mainStream, ← solid_append] at preceding
  have split := whole.trans cut
  refine ⟨before, line, after, split, preceding, ?_, starts⟩
  rw [split, noteTexts_append, List.flatten_append, solid_append, preceding, List.flatten_append,
    ← List.append_assoc, solid_append (mainText _ _ ++ _)] at shown
  exact List.append_cancel_left shown

/-- A document with two endnotes, the second of which starts a page. -/
theorem format_conserves_text_of_paged_notes :
    ShowText
      (lexemes ("\\textheight\x7b2\x7done\\endnote\x7ba\\\x7b\x7d two\n\n" ++
        "\\bold\x7bx\x7dthree\\endnote\x7b\\indent\x7b5\x7db c\x7d").toList)
      ["   one[1] two".toList, [], pageBreak :: "   three[2]".toList, "[1] a\x7b".toList,
        pageBreak :: " [2] b c".toList] :=
  format_conserves_text (show (format .default _).outcome = _ by decide +kernel)

end Galley
