import Mathlib.Data.List.Forall2
import Mathlib.Tactic.SplitIfs
import Galley.Proofs.ComposedWords

/-! # Composers that set the same lines

Neither the height of pages nor whether lines are stretched decides where a line ends. So composers
whose settings differ in nothing else finish, whatever is asked of them, rows with the same words
behind the same indentations, and the gaps are the same too if both stretch lines or neither does
(`Galley.Composer.Alike.run`).
-/

namespace Galley

variable {sameGaps : Prop}

/-- Settings that differ at most in the height of pages and, unless the gaps of lines are to be the
same, in whether lines are stretched. -/
structure Settings.Alike (sameGaps : Prop) (first second : Settings) : Prop where
  textWidth : first.textWidth = second.textWidth
  indentation : first.indentation = second.indentation
  parIndentation : first.parIndentation = second.parIndentation
  parSkip : first.parSkip = second.parSkip
  fill : first.fill = second.fill
  justify : sameGaps → first.justify = second.justify

namespace Settings.Alike

variable {first second : Settings}

theorem apply (alike : first.Alike sameGaps second) (change : Change) :
    (first.apply change).Alike sameGaps (second.apply change) := by
  obtain ⟨width, indentation, parIndentation, skip, fill, justify⟩ := alike
  cases change with
  | measure kind value => cases kind <;> constructor <;> first | assumption | rfl
  | switch kind on =>
      cases kind with
      | fill => exact ⟨width, indentation, parIndentation, skip, rfl, justify⟩
      | justify => exact ⟨width, indentation, parIndentation, skip, fill, fun _ => rfl⟩

theorem effectiveIndentation_eq (alike : first.Alike sameGaps second) (opens : Bool) :
    first.effectiveIndentation opens = second.effectiveIndentation opens := by
  rw [Settings.effectiveIndentation, Settings.effectiveIndentation, alike.indentation,
    alike.parIndentation]

end Settings.Alike

/-- Rows that show the same words behind the same indentation. -/
inductive Row.Alike (sameGaps : Prop) : Row → Row → Prop
  | skip : Row.Alike sameGaps .skip .skip
  | line (indentation : Nat) (words : List (List Char)) {gaps others : List Nat}
      (same : sameGaps → gaps = others) :
      Row.Alike sameGaps (.line ⟨indentation, words, gaps⟩) (.line ⟨indentation, words, others⟩)

theorem Row.Alike.eq {row other : Row} (alike : row.Alike sameGaps other) (same : sameGaps) :
    row = other := by
  cases alike with
  | skip => rfl
  | line indentation words gaps => rw [gaps same]

namespace Composer

/-- Composers in the same state with alike settings. -/
structure Alike (sameGaps : Prop) (first second : Composer) : Prop where
  settings : first.settings.Alike sameGaps second.settings
  word : first.word = second.word
  words : first.words = second.words
  opensParagraph : first.opensParagraph = second.opensParagraph
  untouched : first.untouched = second.untouched

/-- What two operations leave and the rows that they finish are alike. -/
structure Agree (sameGaps : Prop) (first second : Composer × List Row) : Prop where
  composers : first.1.Alike sameGaps second.1
  rows : List.Forall₂ (Row.Alike sameGaps) first.2 second.2

/-- Two operations one after the other. -/
theorem Agree.append {first second later laterOther : Composer × List Row}
    (early : Agree sameGaps first second) (late : Agree sameGaps later laterOther) :
    Agree sameGaps (later.1, first.2 ++ later.2) (laterOther.1, second.2 ++ laterOther.2) :=
  ⟨late.composers, List.rel_append early.rows late.rows⟩

namespace Alike

variable {first second : Composer}

theorem indentation_eq (alike : first.Alike sameGaps second) :
    first.indentation = second.indentation := by
  rw [Composer.indentation, Composer.indentation, alike.opensParagraph,
    alike.settings.effectiveIndentation_eq]

theorem solidWidth_eq (alike : first.Alike sameGaps second) :
    first.solidWidth = second.solidWidth := by
  rw [solidWidth, solidWidth, alike.indentation_eq, alike.words]

theorem skips_eq (alike : first.Alike sameGaps second) : first.skips = second.skips := by
  rw [skips, skips, alike.opensParagraph, alike.untouched, alike.settings.parSkip]

theorem quiet (alike : first.Alike sameGaps second) :
    Agree sameGaps (first, []) (second, []) :=
  ⟨alike, .nil⟩

theorem push (alike : first.Alike sameGaps second) (word : List Char) :
    (first.push word).Alike sameGaps (second.push word) :=
  { alike with words := congrArg (· ++ [word]) alike.words }

theorem emit (alike : first.Alike sameGaps second) {blanks others : Nat}
    (same : sameGaps → blanks = others) :
    Agree sameGaps (first.emit blanks) (second.emit others) where
  composers := ⟨alike.settings, alike.word, rfl, rfl, rfl⟩
  rows := by
    have skipped : List.Forall₂ (Row.Alike sameGaps) second.skips second.skips := by
      refine List.forall₂_same.mpr fun row member => ?_
      cases row with
      | skip => exact .skip
      | line line => exact absurd member (second.not_mem_skips line)
    rw [Composer.emit, Composer.emit, alike.skips_eq, alike.indentation_eq, alike.words]
    refine List.rel_append skipped (.cons (.line _ _ fun given => ?_) .nil)
    rw [same given]

theorem emitPlain (alike : first.Alike sameGaps second) :
    Agree sameGaps first.emitPlain second.emitPlain := by
  unfold Composer.emitPlain
  rw [alike.words]
  split
  · exact alike.quiet
  · exact alike.emit fun _ => rfl

theorem filledBlanks_eq (alike : first.Alike sameGaps second) (same : sameGaps) :
    first.filledBlanks = second.filledBlanks := by
  simp only [filledBlanks, alike.words, alike.settings.justify same, alike.settings.textWidth,
    alike.solidWidth_eq]

/-- A line that is finished by a word ends before the same word in both composers, because the
decision looks at single blanks between the words. -/
theorem addWord (alike : first.Alike sameGaps second) (word : List Char) :
    Agree sameGaps (first.addWord word) (second.addWord word) := by
  unfold Composer.addWord
  rw [alike.settings.fill, alike.settings.textWidth, alike.solidWidth_eq, alike.words]
  split_ifs with fill empty wide overfull
  · exact (alike.push word).emit fun _ => rfl
  · exact (alike.push word).quiet
  · have flushed := alike.emit alike.filledBlanks_eq
    exact ⟨flushed.composers.push word, flushed.rows⟩
  · exact (alike.push word).quiet
  · exact (alike.push word).quiet

theorem finishWord (alike : first.Alike sameGaps second) :
    Agree sameGaps first.finishWord second.finishWord := by
  unfold Composer.finishWord
  rw [alike.word]
  split
  · exact alike.quiet
  · apply addWord
    exact { alike with word := rfl }

theorem endLine (alike : first.Alike sameGaps second) :
    Agree sameGaps first.endLine second.endLine := by
  unfold Composer.endLine
  rw [alike.settings.fill]
  split
  · exact alike.quiet
  · exact alike.emitPlain

theorem endParagraph (alike : first.Alike sameGaps second) :
    Agree sameGaps first.endParagraph second.endParagraph := by
  have finished := alike.finishWord
  have closed := finished.composers.emitPlain
  have opened : first.endParagraph.1.Alike sameGaps second.endParagraph.1 :=
    { closed.composers with opensParagraph := rfl }
  exact ⟨opened, (finished.append closed).rows⟩

theorem step (alike : first.Alike sameGaps second) (action : Action) :
    Agree sameGaps (first.step action) (second.step action) := by
  cases action with
  | addText text => exact quiet { alike with word := congrArg (· ++ text) alike.word }
  | finishWord => exact alike.finishWord
  | addWord word => exact alike.addWord word
  | endLine => exact alike.endLine
  | endParagraph => exact alike.endParagraph
  | change change => exact quiet { alike with settings := alike.settings.apply change }

/-- **Alike composers stay alike** and finish alike rows. -/
theorem run (alike : first.Alike sameGaps second) (actions : List Action) :
    Agree sameGaps (first.run actions) (second.run actions) := by
  induction actions generalizing first second with
  | nil => exact alike.quiet
  | cons action rest ih =>
      have next := alike.step action
      exact next.append (ih next.composers)

end Alike

end Composer

end Galley
