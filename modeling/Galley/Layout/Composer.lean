import Galley.Layout.Line
import Galley.Layout.Settings

/-! # Composing lines

A composer gathers characters into words and words into lines. While it fills, a line ends as soon
as the next word does not fit into the text width, and the line is then stretched towards that
width. Otherwise lines end where the lines of the input end. Each action returns the rows that it
finishes, so what is set does not depend on how rows are grouped into pages.
-/

namespace Galley

/-- A gap of a stretched line gets at most this many blanks on average. -/
def maxBlanksPerGap : Nat :=
  3

/-- The state of a stream of text between two rows. -/
structure Composer where
  settings : Settings
  /-- The characters of the word being built. -/
  word : List Char
  /-- The finished words of the line being built. -/
  words : List (List Char)
  /-- Whether the next line is the first of a paragraph. -/
  opensParagraph : Bool
  /-- Whether no line has been finished yet. -/
  untouched : Bool
deriving DecidableEq

namespace Composer

/-- A composer before any text. -/
def new (settings : Settings) : Composer where
  settings := settings
  word := []
  words := []
  opensParagraph := true
  untouched := true

/-- What can be asked of a composer. -/
inductive Action where
  /-- Add characters to the word being built. -/
  | addText (text : List Char)
  /-- End the word being built, if it has any characters. -/
  | finishWord
  /-- Add a whole word. -/
  | addWord (word : List Char)
  /-- The input line ends. -/
  | endLine
  /-- The paragraph ends. -/
  | endParagraph
  /-- A setting changes. -/
  | change (change : Change)
deriving DecidableEq

/-- Indentation of the line being built. -/
def indentation (composer : Composer) : Nat :=
  composer.settings.effectiveIndentation composer.opensParagraph

/-- Width of the line being built without its gaps. -/
def solidWidth (composer : Composer) : Nat :=
  composer.indentation + composer.words.flatten.length

/-- Empty rows that stand before the line being built. -/
def skips (composer : Composer) : List Row :=
  if composer.opensParagraph ∧ ¬composer.untouched then
    List.replicate composer.settings.parSkip .skip
  else []

/-- Finish the line being built, with `blanks` blanks spread over its gaps. -/
def emit (composer : Composer) (blanks : Nat) : Composer × List Row :=
  ({ composer with words := [], opensParagraph := false, untouched := false },
    composer.skips ++ [.line (.spread composer.indentation blanks composer.words)])

/-- Finish the line being built with one blank in each gap, if it has any words. -/
def emitPlain (composer : Composer) : Composer × List Row :=
  if composer.words = [] then (composer, [])
  else composer.emit (composer.words.length - 1)

/-- Blanks on a filled line: when justifying, what the text width leaves for them, but at least one
and on average at most `maxBlanksPerGap` for each gap. -/
def filledBlanks (composer : Composer) : Nat :=
  let gaps := composer.words.length - 1
  if composer.settings.justify then
    max gaps (min (composer.settings.textWidth - composer.solidWidth) (maxBlanksPerGap * gaps))
  else gaps

/-- Append a word to the line being built. -/
def push (composer : Composer) (word : List Char) : Composer :=
  { composer with words := composer.words ++ [word] }

/-- Add a finished word. While filling, a line that the word does not fit on is finished first, and
a word too wide for a line of its own is set alone at once. -/
def addWord (composer : Composer) (word : List Char) : Composer × List Row :=
  if ¬composer.settings.fill then (composer.push word, [])
  else if composer.words = [] then
    if composer.settings.textWidth < composer.solidWidth + word.length then
      (composer.push word).emit 0
    else (composer.push word, [])
  else
    if composer.settings.textWidth < composer.solidWidth + word.length + composer.words.length then
      let flushed := composer.emit composer.filledBlanks
      (flushed.1.push word, flushed.2)
    else (composer.push word, [])

/-- Add the word being built, if it has any characters. -/
def finishWord (composer : Composer) : Composer × List Row :=
  if composer.word = [] then (composer, [])
  else { composer with word := [] }.addWord composer.word

/-- The input line ends. This ends the line being built unless lines are filled. -/
def endLine (composer : Composer) : Composer × List Row :=
  if composer.settings.fill then (composer, []) else composer.emitPlain

/-- The paragraph ends, and with it the word and the line being built. -/
def endParagraph (composer : Composer) : Composer × List Row :=
  let finished := composer.finishWord
  let closed := finished.1.emitPlain
  ({ closed.1 with opensParagraph := true }, finished.2 ++ closed.2)

/-- Perform an action and return the rows that it finishes. -/
def step (composer : Composer) : Action → Composer × List Row
  | .addText text => ({ composer with word := composer.word ++ text }, [])
  | .finishWord => composer.finishWord
  | .addWord word => composer.addWord word
  | .endLine => composer.endLine
  | .endParagraph => composer.endParagraph
  | .change change => ({ composer with settings := composer.settings.apply change }, [])

/-- Perform actions in order and return all rows that they finish. -/
def run (composer : Composer) : List Action → Composer × List Row
  | [] => (composer, [])
  | action :: rest =>
      let next := composer.step action
      let last := next.1.run rest
      (last.1, next.2 ++ last.2)

end Composer
end Galley
