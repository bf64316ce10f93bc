import Galley.Layout.Composer
import Galley.Layout.Pages

/-! # Streams of text

A stream composes text into rows and groups the rows into pages. Composing never looks at the
pages, so a stream is the composer's run followed by paging.
-/

namespace Galley

/-- A composer and the pages that take its rows. -/
structure Stream where
  composer : Composer
  pages : Pages
deriving DecidableEq

namespace Stream

/-- A stream before any text. -/
def new (settings : Settings) : Stream :=
  ⟨.new settings, .new settings.textHeight⟩

/-- The settings in force. -/
def settings (stream : Stream) : Settings :=
  stream.composer.settings

/-- The pages after an action has set their height, before they take any row. -/
def pagesUnder (stream : Stream) : Composer.Action → Pages
  | .change (.measure .textHeight height) => stream.pages.setHeight height
  | _ => stream.pages

/-- The texts of the rows that an action finishes. -/
def finished (stream : Stream) (action : Composer.Action) : List (List Char) :=
  (stream.composer.step action).2.map Row.text

/-- Perform an action and page the rows that it finishes. -/
def step (stream : Stream) (action : Composer.Action) : Stream where
  composer := (stream.composer.step action).1
  pages := (stream.pagesUnder action).addAll (stream.finished action)

/-- The numbers of the lines that start new pages when an action is performed. -/
def breaks (stream : Stream) (action : Composer.Action) : List Nat :=
  (stream.pagesUnder action).breaks (stream.finished action)

/-- Change the height of the pages without changing the settings. -/
def setPageHeight (stream : Stream) (height : Nat) : Stream :=
  { stream with pages := stream.pages.setHeight height }

/-- Put lines that were set elsewhere on the pages. -/
def addLines (stream : Stream) (texts : List (List Char)) : Stream :=
  { stream with pages := stream.pages.addAll texts }

/-- Take all finished lines away. -/
def take (stream : Stream) : Stream × List PageLine :=
  ({ stream with pages := stream.pages.take.1 }, stream.pages.take.2)

end Stream
end Galley
