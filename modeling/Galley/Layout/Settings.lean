import Galley.Text.Numeral

/-! # Settings

The settings of a stream of text say how wide its lines are, how they are indented and how they
are grouped into pages. All widths are counted in characters.
-/

namespace Galley

/-- Numeric settings that a document can change. -/
inductive Measure where
  | indentation
  | parIndentation
  | parSkip
  | textWidth
  | textHeight
deriving DecidableEq

/-- Settings of a document that are on or off. -/
inductive Switch where
  | fill
  | justify
deriving DecidableEq

/-- The settings in force for one stream of text. -/
structure Settings where
  /-- Width of a line, with its indentation. -/
  textWidth : Nat
  /-- Blanks before every line. -/
  indentation : Nat
  /-- Blanks added to the indentation of the first line of a paragraph; negative for a hanging
  indent. -/
  parIndentation : Int
  /-- Empty lines before every paragraph but the first. -/
  parSkip : Nat
  /-- Lines on a page, if pages are bounded. -/
  textHeight : Option Nat
  /-- Whether words are gathered into lines as long as they fit. -/
  fill : Bool
  /-- Whether filled lines are stretched to the text width. -/
  justify : Bool
deriving DecidableEq

/-- A change of one setting to a number or a choice. -/
inductive Change where
  | measure (measure : Measure) (value : Nat)
  | switch (switch : Switch) (on : Bool)
deriving DecidableEq

namespace Settings

/-- The settings that the main text starts with. -/
def main : Settings where
  textWidth := 72
  indentation := 0
  parIndentation := 3
  parSkip := 1
  textHeight := none
  fill := true
  justify := true

/-- The settings that endnotes start with. The hanging indent puts the label of a note at the left
margin and lines up the rest of the note behind it. -/
def endnote : Settings where
  textWidth := 60
  indentation := 4
  parIndentation := -4
  parSkip := 0
  textHeight := none
  fill := true
  justify := true

/-- Put a change into effect. A paragraph indentation that is too large is cut down. -/
def apply (settings : Settings) : Change → Settings
  | .measure .textWidth value => { settings with textWidth := value }
  | .measure .textHeight value => { settings with textHeight := some value }
  | .measure .indentation value => { settings with indentation := value }
  | .measure .parIndentation value =>
      { settings with parIndentation := (min value maxDistance : Nat) }
  | .measure .parSkip value => { settings with parSkip := value }
  | .switch .fill on => { settings with fill := on }
  | .switch .justify on => { settings with justify := on }

/-- Indentation of a line: that of the stream, changed on the first line of a paragraph, and never
below zero. -/
def effectiveIndentation (settings : Settings) (opensParagraph : Bool) : Nat :=
  if opensParagraph then (settings.indentation + settings.parIndentation).toNat
  else settings.indentation

end Settings
end Galley
