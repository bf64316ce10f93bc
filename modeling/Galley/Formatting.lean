import Galley.Document.Session

/-! # Formatting a document

A document is formatted in one pass from its source and the settings that it starts with. Its
lines are collected, or written as bytes with a line feed after each. Nothing is written unless
the whole document can be formatted.
-/

namespace Galley

/-- What is known after formatting. There are warnings whether it succeeded or not. -/
structure Report (α : Type) where
  outcome : Except Failure α
  warnings : Array Warning
  journal : Array Record

/-- Format a document and deliver its lines to a sink. -/
def deliver {σ : Type} [Sink σ] (presets : Presets) (source : List Char) (sink : σ) :
    σ × Report Unit :=
  match presets.invalid? with
  | some invalid => (sink, ⟨.error (.presets invalid), #[], #[]⟩)
  | none =>
      let (session, reader, outcome) := (Session.new presets sink).read (.new source)
      (session.sink, ⟨outcome, reader.warnings, session.document.journal⟩)

/-- The lines of a document, each with its page mark if it has one. -/
def format (presets : Presets) (source : List Char) : Report (List (List Char)) :=
  let delivered := deliver presets source (Collector.new none)
  { delivered.2 with
    outcome := delivered.2.outcome.map fun _ => delivered.1.lines.toList }

/-- Format a document, write its lines and flush the writer at the end. -/
def writeFormatted (presets : Presets) (source : List Char) (writer : ByteWriter) :
    ByteWriter × Report Unit :=
  let delivered := deliver presets source writer
  match delivered.2.outcome with
  | .error _ => delivered
  | .ok () =>
      let flushed := delivered.1.flush
      (flushed.1,
        match flushed.2 with
        | none => delivered.2
        | some reason => { delivered.2 with outcome := .error (.output reason) })

end Galley
