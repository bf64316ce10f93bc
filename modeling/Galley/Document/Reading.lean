import Galley.Document.Basic
import Galley.Markup.Directive

/-! # Reading a script into a document

The directives of a script are followed one after the other, each with its effect on the document,
up to the first problem. An endnote is read as a whole when its command is met: the script of its
body is followed while the document is in endnote mode.
-/

namespace Galley

/-- A document with what is known from the directives followed so far. -/
structure Reading where
  document : Document
  /-- The endnote whose label has not been written yet. -/
  pending : Option Nat
  warnings : Array Warning
deriving DecidableEq

namespace Reading

/-- Perform an action on the stream that is being written. -/
def perform (reading : Reading) (action : Composer.Action) : Reading :=
  { reading with document := reading.document.perform action }

/-- Write text into the current word, after the label of the endnote if it is still due. -/
def write (reading : Reading) (text : List Char) : Reading :=
  match reading.pending with
  | none => reading.perform (.addText text)
  | some number =>
      { reading with pending := none }.perform (.addText (Document.noteLabel number ++ text))

/-- At the end of an endnote without text its label is written alone, without the blank after
it. -/
def writePending (reading : Reading) : Reading :=
  match reading.pending with
  | none => reading
  | some number =>
      { reading with pending := none }.perform (.addText (Document.noteMark number))

/-- Pass over an unknown command with a warning. -/
def skip (reading : Reading) (name : Piece) : Reading :=
  { reading with
    document := reading.document.record [.unknownCommand name]
    warnings := reading.warnings.push (.unknownCommand name) }

/-- Follow a directive inside an endnote, where no other endnote may stand. -/
def obey (reading : Reading) : Directive → Reading × Option Problem
  | .endWord => (reading.perform .finishWord, none)
  | .endLine => ((reading.perform .finishWord).perform .endLine, none)
  | .endParagraph => ((reading.perform .finishWord).perform .endParagraph, none)
  | .write text => (reading.write text, none)
  | .measure measure value command argument =>
      match reading.document.setMeasure measure value with
      | .ok document => ({ reading with document }, none)
      | .error invalid => (reading, some (.invalidValue command argument invalid))
  | .switch switch on => ({ reading with document := reading.document.setSwitch switch on }, none)
  | .skip name => (reading.skip name, none)
  | .note command _ => (reading, some (.nestedEndnote command))

/-- Read a script up to the first problem; with a problem comes the script after it. -/
def readWith (follow : Reading → Directive → Reading × Option Problem) :
    Reading → Script → Reading × Option (Problem × Script)
  | reading, [] => (reading, none)
  | reading, .error problem :: rest => (reading, some (problem, rest))
  | reading, .ok directive :: rest =>
      match follow reading directive with
      | (next, none) => readWith follow next rest
      | (next, some problem) => (next, some (problem, rest))

/-- Read the body of the next endnote. If the body shows a problem the document stays in endnote
mode. -/
def readNote (reading : Reading) (body : List Token) : Reading × Option Problem :=
  let opened : Reading :=
    { reading with
      document := reading.document.beginNote
      pending := some reading.document.nextNote }
  match opened.readWith obey (.ofTokens body) with
  | (read, some (problem, _)) => ({ read with pending := reading.pending }, some problem)
  | (read, none) =>
      ({ read with
          document := read.writePending.document.endNote
          pending := reading.pending }, none)

/-- Follow a directive of the main text, where endnotes may stand while the document is in normal
mode. -/
def follow (reading : Reading) : Directive → Reading × Option Problem
  | .note command body =>
      match reading.document.mode with
      | .normal => reading.readNote body
      | .endnote => reading.obey (.note command body)
  | directive => reading.obey directive

/-- Read the script of a main text up to the first problem. -/
def read (reading : Reading) (script : Script) : Reading × Option (Problem × Script) :=
  reading.readWith follow script

end Reading
end Galley
