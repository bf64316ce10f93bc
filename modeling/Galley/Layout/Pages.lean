import Galley.Layout.Line

/-! # Pages

Lines are grouped into pages of bounded height. A page is not an object of its own: the first line
of every page after the first is marked, and the mark is written as a form feed at its start. A
skipped line that arrives at a full page is dropped, so no page starts with it.
-/

namespace Galley

/-- The character that marks the first line of a page. -/
def pageBreak : Char :=
  '\x0c'

/-- A line at its place on a page. -/
structure PageLine where
  /-- Whether the line is the first of a page after the first page. -/
  opensPage : Bool
  /-- The characters of the line; a skipped line has none. -/
  text : List Char
deriving DecidableEq

/-- The characters of a line with its page mark. -/
def PageLine.render (line : PageLine) : List Char :=
  if line.opensPage then pageBreak :: line.text else line.text

/-- Lines that are being grouped into pages. -/
structure Pages where
  /-- Lines on a page, if pages are bounded. -/
  height : Option Nat
  /-- Lines on the current page so far. -/
  used : Nat
  /-- The lines that have not been taken away yet. -/
  held : Array PageLine
deriving DecidableEq

namespace Pages

/-- Pages of a given height, before any line. -/
def new (height : Option Nat) : Pages :=
  ⟨height, 0, #[]⟩

/-- Change the height of the current and all later pages. -/
def setHeight (pages : Pages) (height : Nat) : Pages :=
  { pages with height := some height }

/-- Whether a line of text still fits on the current page. -/
def hasRoom (pages : Pages) : Bool :=
  pages.height.all (pages.used < ·)

/-- Whether the next row of text starts a new page. -/
def breaksBefore (pages : Pages) (text : List Char) : Bool :=
  text ≠ [] && !pages.hasRoom

/-- Add a line; an empty text is a skipped line. A line of text that does not fit on the current
page starts a new one, and a skipped line that arrives when the page is exactly full is dropped. -/
def add (pages : Pages) (text : List Char) : Pages :=
  if text = [] then
    if pages.height = some pages.used then pages
    else { pages with used := pages.used + 1, held := pages.held.push ⟨false, text⟩ }
  else if pages.hasRoom then
    { pages with used := pages.used + 1, held := pages.held.push ⟨false, text⟩ }
  else { pages with used := 1, held := pages.held.push ⟨true, text⟩ }

/-- Add lines in order. -/
def addAll (pages : Pages) (texts : List (List Char)) : Pages :=
  texts.foldl add pages

/-- For each page that is started when lines are added, the number that its first line has among
the lines held, counted from one. -/
def breaks (pages : Pages) : List (List Char) → List Nat
  | [] => []
  | text :: rest =>
      if pages.breaksBefore text then (pages.held.size + 1) :: (pages.add text).breaks rest
      else (pages.add text).breaks rest

/-- The characters of all lines held, with their page marks. -/
def lines (pages : Pages) : List (List Char) :=
  pages.held.toList.map PageLine.render

/-- Take all lines away. The place on the current page is kept. -/
def take (pages : Pages) : Pages × List PageLine :=
  ({ pages with held := #[] }, pages.held.toList)

end Pages
end Galley
