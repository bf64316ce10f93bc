/-! # Lines

A line is a row of words with an indentation before the first and a gap between neighbours. The
blanks of a line are spread over its gaps by rounding, so that gaps differ as little as they can.
Main statements: no blanks stand before the first word (`blanksBefore_zero`), all of them before
the last (`blanksBefore_last`), and never fewer before a later word (`blanksBefore_mono`).
-/

namespace Galley

/-- Blanks between word `0` and word `index` of a line of `count` words, when `blanks` blanks are
spread over the line: the integer nearest to `index * blanks / (count - 1)`, a half going up. -/
def blanksBefore (index blanks count : Nat) : Nat :=
  if count < 2 then 0
  else (2 * index * blanks + (count - 1)) / (2 * (count - 1))

/-- The gaps of a line of `count` words over which `blanks` blanks are spread, from left to
right. -/
def spreadGaps (blanks count : Nat) : List Nat :=
  (List.range (count - 1)).map fun index =>
    blanksBefore (index + 1) blanks count - blanksBefore index blanks count

@[simp] theorem length_spreadGaps (blanks count : Nat) :
    (spreadGaps blanks count).length = count - 1 := by
  simp [spreadGaps]

/-- No blanks stand before the first word. -/
theorem blanksBefore_zero (blanks count : Nat) : blanksBefore 0 blanks count = 0 := by
  unfold blanksBefore
  split
  · rfl
  · rw [Nat.mul_zero, Nat.zero_mul, Nat.zero_add, Nat.div_eq_of_lt]
    omega

/-- All blanks stand before the last word. -/
theorem blanksBefore_last (blanks count : Nat) :
    blanksBefore (count - 1) blanks count = if count < 2 then 0 else blanks := by
  unfold blanksBefore
  split
  · rfl
  · rw [Nat.mul_add_div (by omega), Nat.div_eq_of_lt (by omega), Nat.add_zero]

/-- Later words have at least as many blanks before them. -/
theorem blanksBefore_mono {first second : Nat} (le : first ≤ second) (blanks count : Nat) :
    blanksBefore first blanks count ≤ blanksBefore second blanks count := by
  unfold blanksBefore
  split
  · exact Nat.le_refl 0
  · exact Nat.div_le_div_right
      (Nat.add_le_add_right (Nat.mul_le_mul_right blanks (Nat.mul_le_mul_left 2 le)) _)

/-- A line that has been set. -/
structure Line where
  /-- Blanks before the first word. -/
  indentation : Nat
  words : List (List Char)
  /-- Blanks between each word and the next. -/
  gaps : List Nat
deriving DecidableEq

namespace Line

/-- Set words on a line, with `blanks` blanks spread over the gaps between them. -/
def spread (indentation blanks : Nat) (words : List (List Char)) : Line :=
  ⟨indentation, words, spreadGaps blanks words.length⟩

/-- Words with gaps between them. -/
def joinWords : List (List Char) → List Nat → List Char
  | [], _ => []
  | [word], _ => word
  | word :: rest, [] => word ++ joinWords rest []
  | word :: rest, gap :: gaps => word ++ List.replicate gap ' ' ++ joinWords rest gaps

/-- The characters of a line. -/
def render (line : Line) : List Char :=
  List.replicate line.indentation ' ' ++ joinWords line.words line.gaps

end Line

/-- What a stream of text puts on a page: a line of words, or an empty line between paragraphs. -/
inductive Row where
  | skip
  | line (line : Line)
deriving DecidableEq

/-- The characters of a row; a skipped line has none. -/
def Row.text : Row → List Char
  | .skip => []
  | .line composed => composed.render

end Galley
