import Galley.Text.Piece

/-! # Journal records

While a document is formatted, a journal is kept of what happens to it.
-/

namespace Galley

/-- An entry of the journal. -/
inductive Record where
  /-- A page ended before the line of this number among the lines held, counted from one. -/
  | pageBreak (line : Nat)
  /-- A text height was given inside an endnote, where it has no effect. -/
  | ignoredHeight (value : Int)
  /-- The endnote of this number started. -/
  | noteStarted (number : Nat)
  /-- The endnote of this number ended. -/
  | noteFinished (number : Nat)
  /-- A number of finished lines is about to be written. -/
  | writing (lines : Nat)
  /-- A command of unknown name was passed over. -/
  | unknownCommand (name : Piece)
deriving DecidableEq

namespace Record

/-- Whether the record asks for attention; only those on the text of the document do. -/
def isWarning : Record → Bool
  | unknownCommand _ => true
  | _ => false

/-- The record in words. -/
def message : Record → String
  | pageBreak line => "page break before output line " ++ toString line
  | ignoredHeight value => "ignoring text height " ++ toString value ++ " inside an endnote"
  | noteStarted number => "starting endnote " ++ toString number
  | noteFinished number => "finished endnote " ++ toString number
  | writing lines => "writing " ++ toString lines ++ " lines"
  | unknownCommand name =>
      "skipping unknown command `\\" ++ name.toString ++ "` at " ++ toString name.start ++ ".." ++
        toString name.stop

end Record
end Galley
