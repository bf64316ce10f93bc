import Mathlib.Data.List.Forall2
import Galley.Proofs.FormattedLines

/-! # Endnotes and main text are isolated

What stands in an endnote does not reach the main text, and the main text does not reach the
endnotes but for the pages that both share. Main statement: two documents that differ in the bodies
of their endnotes have the same main lines, two that share those bodies have the same endnote lines
on pages without bound, and one endnote changes the main text by its reference alone
(`Galley.endnotes_isolated`).
-/

namespace Galley

/-! ## What differs in an endnote -/

/-- Lexemes that are the same but for the body of an endnote and the spelling of blanks. -/
inductive Lexeme.SameButNote : Lexeme → Lexeme → Prop
  | same (unit : Lexeme) : SameButNote unit unit
  | blank (first second : List Char) : SameButNote (.blank first) (.blank second)
  | lineBreak (first second : LineEnd) : SameButNote (.lineBreak first) (.lineBreak second)
  | paragraphBreak (one two other another : LineEnd) (more others : List LineEnd) :
      SameButNote (.paragraphBreak one two more) (.paragraphBreak other another others)
  | note (first second : List Char) :
      SameButNote (.command Command.endnote.name.toList (some first))
        (.command Command.endnote.name.toList (some second))

/-- The main text does not depend on the bodies of endnotes. -/
theorem mainActions_eq_of_sameButNotes {first second : List Lexeme}
    (same : List.Forall₂ Lexeme.SameButNote first second) (number : Nat) :
    mainActions number first = mainActions number second := by
  induction same generalizing number with
  | nil => rfl
  | cons head tail ih =>
      cases head with
      | same => simp only [mainActions, ih]
      | note first second =>
          simp only [mainActions, Lexeme.noteBody?_endnote (Command.ofName?_name .endnote), ih]
      | _ => simp only [mainActions, Lexeme.noteBody?, Lexeme.actions, ih]

/-! ## The lines of one run -/

/-- A document when its source has been read and its last paragraph has ended, and the endnotes
have not been paged yet. -/
def readThrough (presets : Presets) (source : List Char) : Document :=
  (presets.opened.read (.ofTokens (tokens source))).1.document.perform .endParagraph

/-- The lines of the main text with their page marks. -/
def mainLines (presets : Presets) (source : List Char) : List (List Char) :=
  (readThrough presets source).main.pages.lines

/-- The lines of the endnotes on the pages of the main text. -/
def noteLines (presets : Presets) (source : List Char) : List (List Char) :=
  ((readThrough presets source).main.pages.laid (readThrough presets source).notes.pages.lines).map
    PageLine.render

theorem streams_readThrough {presets : Presets} {source : List Char} {lines : List (List Char)}
    (formatted : (format presets source).outcome = .ok lines) :
    (readThrough presets source).main = mainStream presets (lexemes source) ∧
      (readThrough presets source).notes =
        noteStream presets (noteBodies (lexemes source)) := by
  obtain ⟨journal, same⟩ := readsTo_of_format formatted
  rw [readThrough, same, mainStream, Stream.run_append]
  exact ⟨rfl, rfl⟩

theorem eq_mainLines_append_noteLines {presets : Presets} {source : List Char}
    {lines : List (List Char)} (formatted : (format presets source).outcome = .ok lines) :
    lines = mainLines presets source ++ noteLines presets source := by
  obtain ⟨main, notes⟩ := streams_readThrough formatted
  rw [lines_of_format formatted, Pages.lines_addAll, mainLines, noteLines, main, notes]

/-- On pages without bound the lines of the endnotes are those that they were set in. -/
theorem noteLines_of_unbounded {presets : Presets} {source : List Char}
    (unbounded : (readThrough presets source).main.pages.height = none) :
    noteLines presets source = (readThrough presets source).notes.pages.lines := by
  rw [noteLines, Pages.laid_of_unbounded unbounded, List.map_map]
  exact List.map_id' _

/-! ## One endnote -/

/-- The command for an endnote with a given body. -/
def noteToken (start : Nat) (body : List Char) : Token :=
  ⟨start, .command Command.endnote.name.toList (some body)⟩

theorem Reading.follow_of_read_noteToken {reading next : Reading} {start : Nat} {body : List Char}
    (normal : reading.document.mode = .normal) (due : reading.pending = none)
    (read : reading.read (.ofTokens [noteToken start body]) = (next, none)) :
    ∃ directive, (noteToken start body).directive = .ok directive ∧
      reading.follow directive = (next, none) ∧ next.pending = none ∧
      reading.document.ReadsTo [(noteToken start body).lexeme] next.document := by
  have asked : (noteToken start body).directive =
      .ok (.note (Token.commandPiece start Command.endnote.name.toList)
        (Token.argumentPiece start Command.endnote.name.toList body).tokens) := rfl
  refine ⟨_, asked, ?_⟩
  rw [Reading.read, Script.ofTokens, List.map_singleton, asked, readWith] at read
  split at read
  · rename_i mid followed
    cases read
    obtain ⟨pending, reads⟩ := readsTo_follow normal due asked followed
    exact ⟨followed, pending, reads⟩
  · simp at read

/-- A document after an endnote: the main text has a reference more in the word being built, and the
endnotes have the actions for this number and this body behind them. -/
structure Document.NoteAdded (document : Document) (body : List Char) (after : Document) :
    Prop where
  main : after.main =
    { document.main with
      composer :=
        { document.main.composer with
          word := document.main.composer.word ++ Document.noteMark document.nextNote } }
  notes : after.notes = document.notes.run (noteActions document.nextNote body)
  mode : after.mode = document.mode
  finished : after.finished = document.finished
  nextNote : after.nextNote = document.nextNote + 1

theorem Reading.noteAdded_of_read {reading next : Reading} {start : Nat} {body : List Char}
    (normal : reading.document.mode = .normal) (due : reading.pending = none)
    (read : reading.read (.ofTokens [noteToken start body]) = (next, none)) :
    reading.document.NoteAdded body next.document := by
  obtain ⟨directive, -, -, -, journal, same⟩ := follow_of_read_noteToken normal due read
  rw [same]
  refine ⟨rfl, ?_, rfl, rfl, rfl⟩
  show reading.document.notes.run (noteActions reading.document.nextNote body ++ []) = _
  rw [List.append_nil]

/-- A session that meets an endnote reads on behind it with the same sink. -/
theorem Session.read_noteToken {σ : Type} [Sink σ] (session : Session σ) {start : Nat}
    {body : List Char} {warnings : Array Warning} {next : Reading}
    (normal : session.document.mode = .normal)
    (read : Reading.read ⟨session.document, none, warnings⟩
      (.ofTokens [noteToken start body]) = (next, none)) (rest : List Token) :
    session.read ⟨.ofTokens (noteToken start body :: rest), warnings⟩ =
      Session.read ⟨next.document, session.sink⟩ ⟨.ofTokens rest, next.warnings⟩ := by
  obtain ⟨directive, asked, followed, pending, -⟩ :=
    Reading.follow_of_read_noteToken normal rfl read
  obtain ⟨document, due, known⟩ := next
  cases pending
  simp only [Session.read, Reading.read, Script.ofTokens, List.map_cons, asked, Reading.readWith,
    followed]

/-! ## Isolation -/

/-- **Endnotes are isolated.** Consider two documents that are formatted with the same presets. If
they differ only in the bodies of their endnotes, everything that was done to their main text is the
same, and so are the lines before the endnotes. If they have the same endnotes and the pages of
their main text are never bounded, the lines of the endnotes are the same. Moreover an endnote that
is read in a session adds nothing but its reference to the main text, what it does to the endnotes
depends on these, its number and its body, and the sink stays as it is. -/
theorem endnotes_isolated {presets : Presets} {first second : List Char}
    {firstLines secondLines : List (List Char)}
    (firstFormatted : (format presets first).outcome = .ok firstLines)
    (secondFormatted : (format presets second).outcome = .ok secondLines) :
    (firstLines = mainLines presets first ++ noteLines presets first ∧
      secondLines = mainLines presets second ++ noteLines presets second) ∧
    (List.Forall₂ Lexeme.SameButNote (lexemes first) (lexemes second) →
      (readThrough presets first).main = (readThrough presets second).main ∧
      mainLines presets first = mainLines presets second) ∧
    (noteBodies (lexemes first) = noteBodies (lexemes second) →
      (readThrough presets first).main.pages.height = none →
      (readThrough presets second).main.pages.height = none →
      noteLines presets first = noteLines presets second) ∧
    ∀ {σ : Type} [Sink σ] (session : Session σ) (start : Nat) (body : List Char)
      (warnings : Array Warning) (next : Reading),
      session.document.mode = .normal →
      Reading.read ⟨session.document, none, warnings⟩ (.ofTokens [noteToken start body]) =
        (next, none) →
      session.document.NoteAdded body next.document ∧
      ∀ rest, session.read ⟨.ofTokens (noteToken start body :: rest), warnings⟩ =
        Session.read ⟨next.document, session.sink⟩ ⟨.ofTokens rest, next.warnings⟩ := by
  obtain ⟨firstMain, firstNotes⟩ := streams_readThrough firstFormatted
  obtain ⟨secondMain, secondNotes⟩ := streams_readThrough secondFormatted
  refine ⟨⟨eq_mainLines_append_noteLines firstFormatted,
    eq_mainLines_append_noteLines secondFormatted⟩, ?_, ?_, ?_⟩
  · intro same
    have main : (readThrough presets first).main = (readThrough presets second).main := by
      rw [firstMain, secondMain, mainStream, mainStream, mainActions_eq_of_sameButNotes same]
    exact ⟨main, by rw [mainLines, main, mainLines]⟩
  · intro same firstUnbounded secondUnbounded
    rw [noteLines_of_unbounded firstUnbounded, noteLines_of_unbounded secondUnbounded, firstNotes,
      secondNotes, same]
  · intro σ sink session start body warnings next normal read
    exact ⟨Reading.noteAdded_of_read normal rfl read, session.read_noteToken normal read⟩

/-- The first two documents differ in an endnote, the first and the third in their main text. -/
theorem endnotes_isolated_of_three :
    let first := "one\\endnote\x7ba\x7d two".toList
    let second := "one\\endnote\x7b\\nofill b\x7d two".toList
    let third := "\\nofill three\\endnote\x7ba\x7d".toList
    mainLines .default first = mainLines .default second ∧
      noteLines .default first = noteLines .default third := by
  intro first second third
  have firstFormatted : (format .default first).outcome =
      .ok ["   one[1] two".toList, "[1] a".toList] := by decide +kernel
  have secondFormatted : (format .default second).outcome =
      .ok ["   one[1] two".toList, "[1] b".toList] := by decide +kernel
  have thirdFormatted : (format .default third).outcome =
      .ok ["   three[1]".toList, "[1] a".toList] := by decide +kernel
  have firstUnits : lexemes first = [.text "one".toList,
      .command Command.endnote.name.toList (some ['a']), .blank [' '], .text "two".toList] := by
    decide +kernel
  have secondUnits : lexemes second = [.text "one".toList,
      .command Command.endnote.name.toList (some "\\nofill b".toList), .blank [' '],
      .text "two".toList] := by
    decide +kernel
  have same : List.Forall₂ Lexeme.SameButNote (lexemes first) (lexemes second) := by
    rw [firstUnits, secondUnits]
    exact .cons (.same _) (.cons (.note _ _) (.cons (.same _) (.cons (.same _) .nil)))
  have unbounded : (readThrough .default first).main.pages.height = none ∧
      (readThrough .default third).main.pages.height = none := by decide +kernel
  have bodies : noteBodies (lexemes first) = noteBodies (lexemes third) := by decide +kernel
  exact ⟨((endnotes_isolated firstFormatted secondFormatted).2.1 same).2,
    (endnotes_isolated firstFormatted thirdFormatted).2.2.1 bodies unbounded.1 unbounded.2⟩

end Galley
