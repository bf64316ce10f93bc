import Galley.Formatting
import Galley.Proofs.ReadStreams

/-! # The lines of a formatted document

Formatting with valid presets fails only with a problem that reading shows
(`Galley.outcome_format`). Otherwise its lines are those of the main text, with the lines of the
endnotes paged after them, and both come from runs of the two streams that depend on lexemes alone
(`Galley.lines_of_format`).
-/

namespace Galley

theorem Collector.writeAll_of_unbounded (held : Array (List Char)) (texts : List (List Char)) :
    Sink.writeAll (Collector.mk none held) texts = (⟨none, held ++ texts.toArray⟩, none) := by
  induction texts generalizing held with
  | nil => simp [Sink.writeAll]
  | cons text rest ih =>
      have one : Sink.write (Collector.mk none held) text = (⟨none, held.push text⟩, none) := rfl
      rw [Sink.writeAll, one]
      simp only [ih]
      simp

/-- A reading of an empty document. -/
def Presets.opened (presets : Presets) : Reading :=
  ⟨.new presets, none, #[]⟩

/-- Formatting with valid presets gives the lines of the closed document, or the problem that
reading ends with. -/
theorem outcome_format {presets : Presets} (valid : presets.Valid) (source : List Char) :
    (format presets source).outcome =
      match presets.opened.read (.ofTokens (tokens source)) with
      | (_, some (problem, _)) => .error (.document problem)
      | (reading, none) => .ok (reading.document.close.2.map PageLine.render) := by
  have checked := Presets.invalid?_eq_none_iff.mpr valid
  simp only [format, deliver, checked, Session.read, Session.new, Reader.new, Presets.opened]
  obtain ⟨reading, found⟩ := Reading.read ⟨.new presets, none, #[]⟩ (.ofTokens (tokens source))
  cases found with
  | some found => rfl
  | none =>
      simp [Session.close, Collector.new, Collector.writeAll_of_unbounded, Except.map]

theorem valid_of_format {presets : Presets} {source : List Char} {lines : List (List Char)}
    (formatted : (format presets source).outcome = .ok lines) : presets.Valid := by
  rw [← Presets.invalid?_eq_none_iff]
  cases checked : presets.invalid? with
  | none => rfl
  | some invalid => simp [format, deliver, checked, Except.map] at formatted

/-- The main text of a document when its last paragraph has ended. -/
def mainStream (presets : Presets) (units : List Lexeme) : Stream :=
  (Stream.new presets.main).run (mainActions 1 units ++ [.endParagraph])

/-- The endnotes of a document before any endnote. -/
def emptyNotes (presets : Presets) : Stream :=
  .new { presets.endnote with textHeight := none }

/-- The endnotes of a document with endnotes of these bodies. -/
def noteStream (presets : Presets) (bodies : List (List Char)) : Stream :=
  (emptyNotes presets).run (notesActions 1 bodies)

theorem lines_noteStream (presets : Presets) (bodies : List (List Char)) :
    (noteStream presets bodies).pages.lines =
      (emptyNotes presets).rowTexts (notesActions 1 bodies) := by
  rw [noteStream, Stream.pages_run fun height =>
    not_mem_notesActions 1 bodies (Or.inr ⟨height, rfl⟩), Pages.lines_addAll_of_unbounded rfl]
  rfl

/-- A document that has been read without a problem is closed with the lines of the main text and
those of the endnotes paged after them. -/
theorem held_of_readsTo {presets : Presets} {units : List Lexeme} {document : Document}
    (read : (Document.new presets).ReadsTo units document) :
    document.close.2 = ((mainStream presets units).pages.addAll
      (noteStream presets (noteBodies units)).pages.lines).held.toList := by
  obtain ⟨journal, rfl⟩ := read
  rw [mainStream, Stream.run_append]
  rfl

theorem close_of_readsTo {presets : Presets} {units : List Lexeme} {document : Document}
    (read : (Document.new presets).ReadsTo units document) :
    document.close.2.map PageLine.render =
      ((mainStream presets units).pages.addAll
        (noteStream presets (noteBodies units)).pages.lines).lines :=
  congrArg (List.map PageLine.render) (held_of_readsTo read)

/-- A document that is formatted is read without a problem and then closed. -/
theorem read_of_format {presets : Presets} {source : List Char} {lines : List (List Char)}
    (formatted : (format presets source).outcome = .ok lines) :
    ∃ reading, presets.opened.read (.ofTokens (tokens source)) = (reading, none) ∧
      lines = reading.document.close.2.map PageLine.render := by
  rw [outcome_format (valid_of_format formatted)] at formatted
  split at formatted
  · simp at formatted
  · rename_i reading read
    exact ⟨reading, read, (Except.ok.inj formatted).symm⟩

theorem readsTo_of_format {presets : Presets} {source : List Char} {lines : List (List Char)}
    (formatted : (format presets source).outcome = .ok lines) :
    (Document.new presets).ReadsTo (lexemes source)
      (presets.opened.read (.ofTokens (tokens source))).1.document := by
  obtain ⟨reading, read, -⟩ := read_of_format formatted
  have readsTo := Reading.readsTo_read rfl rfl read
  rw [tokens, Piece.tokens, Token.map_lexeme_place] at readsTo
  rw [read]
  exact readsTo

/-- **The lines of a document** are those of the main text with those of the endnotes paged after
them. -/
theorem lines_of_format {presets : Presets} {source : List Char} {lines : List (List Char)}
    (formatted : (format presets source).outcome = .ok lines) :
    lines = ((mainStream presets (lexemes source)).pages.addAll
      (noteStream presets (noteBodies (lexemes source))).pages.lines).lines := by
  obtain ⟨reading, read, closed⟩ := read_of_format formatted
  have readsTo := readsTo_of_format formatted
  rw [read] at readsTo
  rw [closed, close_of_readsTo readsTo]

end Galley
