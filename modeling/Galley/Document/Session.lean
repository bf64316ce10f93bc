import Galley.Document.Failure
import Galley.Document.Reading
import Galley.Output.Sink

/-! # Sessions

A session writes a document and delivers its lines to a sink when the document is finished. The
sink receives nothing before that and nothing after it.
-/

namespace Galley

/-- A source that is being read: the script still to be followed and the warnings so far. -/
structure Reader where
  rest : Script
  warnings : Array Warning

/-- A reader at the start of a source. -/
def Reader.new (source : List Char) : Reader :=
  ⟨.ofTokens (tokens source), #[]⟩

/-- A document and the sink that its lines go to. -/
structure Session (σ : Type) where
  document : Document
  sink : σ

namespace Session

variable {σ : Type}

/-- A session with an empty document. -/
def new (presets : Presets) (sink : σ) : Session σ :=
  ⟨.new presets, sink⟩

/-- What can be asked of a session. -/
inductive Action where
  | addText (text : List Char)
  | endWord
  | endLine
  | endParagraph
  | measure (measure : Measure) (value : Int)
  | switch (switch : Switch) (on : Bool)
  | beginNote
  | close
deriving DecidableEq

/-- How a session responds to an action. -/
inductive Response where
  | done
  /-- The number was not allowed, and nothing changed. -/
  | rejected (invalid : InvalidValue)
  /-- An endnote began; its text starts with the label. -/
  | label (text : List Char)
  /-- The sink refused a line. -/
  | failed (reason : String)
deriving DecidableEq

/-- Close the current part of the document and deliver the lines that this hands out. -/
def close [Sink σ] (session : Session σ) : Session σ × Option String :=
  let closed := session.document.close
  let delivered := Sink.writeAll session.sink (closed.2.map PageLine.render)
  (⟨closed.1, delivered.1⟩, delivered.2)

/-- Perform an action on the stream that is being written. -/
def compose (session : Session σ) (action : Composer.Action) : Session σ × Response :=
  ({ session with document := session.document.perform action }, .done)

/-- Perform an action. -/
def perform [Sink σ] (session : Session σ) : Action → Session σ × Response
  | .addText text => session.compose (.addText text)
  | .endWord => session.compose .finishWord
  | .endLine => session.compose .endLine
  | .endParagraph => session.compose .endParagraph
  | .measure measure value =>
      match session.document.setMeasure measure value with
      | .ok document => ({ session with document }, .done)
      | .error invalid => (session, .rejected invalid)
  | .switch switch on =>
      ({ session with document := session.document.setSwitch switch on }, .done)
  | .beginNote =>
      ({ session with document := session.document.beginNote },
        .label (Document.noteLabel session.document.nextNote))
  | .close =>
      let closed := session.close
      (closed.1, (closed.2.map Response.failed).getD .done)

/-- Read on in a source and close the document at its end. After a problem the reader stands behind
what showed it, so that the rest of the source can still be read. -/
def read [Sink σ] (session : Session σ) (reader : Reader) :
    Session σ × Reader × Except Failure Unit :=
  let opened : Reading := ⟨session.document, none, reader.warnings⟩
  match opened.read reader.rest with
  | (reading, some (problem, rest)) =>
      (⟨reading.document, session.sink⟩, ⟨rest, reading.warnings⟩, .error (.document problem))
  | (reading, none) =>
      let closed := Session.close ⟨reading.document, session.sink⟩
      (closed.1, ⟨[], reading.warnings⟩,
        match closed.2 with
        | none => .ok ()
        | some reason => .error (.output reason))

end Session
end Galley
