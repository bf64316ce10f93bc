import Galley.Document.Record
import Galley.Layout.Presets
import Galley.Layout.Stream

/-! # Documents

A document has two streams of text, one for the main text and one for the endnotes, each with
settings of its own. Text goes to the stream of the current mode. When the document is finished,
the lines of the endnotes are paged after those of the main text.
-/

namespace Galley

/-- The part of a document that is being written. -/
inductive Mode where
  | normal
  | endnote
deriving DecidableEq

/-- A document that is being written. -/
structure Document where
  main : Stream
  notes : Stream
  mode : Mode
  /-- Number of the next endnote. -/
  nextNote : Nat
  /-- Whether the lines of the document have been handed out. -/
  finished : Bool
  journal : Array Record
deriving DecidableEq

namespace Document

/-- An empty document. The endnotes are paged together with the main text, so their stream has
pages without bound. -/
def new (presets : Presets) : Document where
  main := .new presets.main
  notes := .new { presets.endnote with textHeight := none }
  mode := .normal
  nextNote := 1
  finished := false
  journal := #[]

/-- The stream that is being written. -/
def active (document : Document) : Stream :=
  match document.mode with
  | .normal => document.main
  | .endnote => document.notes

/-- Replace the stream that is being written. -/
def setActive (document : Document) (stream : Stream) : Document :=
  match document.mode with
  | .normal => { document with main := stream }
  | .endnote => { document with notes := stream }

/-- The settings in force where the document is being written. -/
def settings (document : Document) : Settings :=
  document.active.settings

/-- Add records to the journal. -/
def record (document : Document) (records : List Record) : Document :=
  { document with journal := document.journal ++ records }

/-- Perform an action on the stream that is being written. -/
def perform (document : Document) (action : Composer.Action) : Document :=
  (document.setActive (document.active.step action)).record
    ((document.active.breaks action).map .pageBreak)

/-- Set a measure of the current stream to a number, if the number is allowed. The height of pages
is a matter of the main text: inside an endnote it is ignored, whatever the number. -/
def setMeasure (document : Document) (measure : Measure) (value : Int) :
    Except InvalidValue Document :=
  if document.mode = .endnote ∧ measure = .textHeight then
    .ok (document.record [.ignoredHeight value])
  else
    (measure.requirement.check value).map fun number =>
      document.perform (.change (.measure measure number))

/-- Turn a switch of the current stream on or off. -/
def setSwitch (document : Document) (switch : Switch) (on : Bool) : Document :=
  document.perform (.change (.switch switch on))

/-- The reference to an endnote in the main text. -/
def noteMark (number : Nat) : List Char :=
  '[' :: (toString number).toList ++ [']']

/-- The text that an endnote starts with. -/
def noteLabel (number : Nat) : List Char :=
  noteMark number ++ [' ']

/-- Put the reference to the next endnote into the main text and go on with that endnote. -/
def beginNote (document : Document) : Document :=
  { document with
    main := document.main.step (.addText (noteMark document.nextNote))
    mode := .endnote
    nextNote := document.nextNote + 1
    journal := document.journal.push (.noteStarted document.nextNote) }

/-- End the paragraph of an endnote and go back to the main text. -/
def endNote (document : Document) : Document :=
  { document.perform .endParagraph with mode := .normal }.record
    [.noteFinished (document.nextNote - 1)]

/-- End the main text, page the endnotes after it and hand out all lines. -/
def finish (document : Document) : Document × List PageLine :=
  let ended := document.perform .endParagraph
  let noteTexts := ended.notes.take.2.map PageLine.render
  let whole := (ended.main.addLines noteTexts).take
  ({ ended with main := whole.1, notes := ended.notes.take.1, finished := true }.record
      ((ended.main.pages.breaks noteTexts).map Record.pageBreak ++
        [Record.writing whole.2.length]),
    whole.2)

/-- Close the part that is being written. Closing an endnote leads back to the main text. Closing
the main text finishes the document and hands out its lines, once and never again. -/
def close (document : Document) : Document × List PageLine :=
  match document.mode with
  | .endnote => (document.endNote, [])
  | .normal => if document.finished then (document, []) else document.finish

end Document
end Galley
