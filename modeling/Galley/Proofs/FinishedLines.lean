import Galley.Proofs.ComposedWords
import Galley.Proofs.SpreadBlanks

/-! # Lines as they are finished

A line is finished when a word is added that it has no room for, at the end of an input line or at
the end of a paragraph, with the settings that are in force at that moment. Whatever was asked of a
composer before, the gaps of the line are as even as they can be, have between one and three blanks,
and fill the text width as far as this allows if the line is to be stretched
(`Galley.Composer.justifies_lines`).
-/

namespace Galley

namespace Line

theorem length_joinWords {words : List (List Char)} {gaps : List Nat}
    (fitting : gaps.length + 1 = words.length) :
    (joinWords words gaps).length = words.flatten.length + gaps.sum := by
  fun_induction joinWords words gaps with
  | case1 => simp at fitting
  | case2 word gaps =>
      cases List.eq_nil_of_length_eq_zero (Nat.succ.inj fitting)
      simp
  | case3 word rest several => exact absurd (Nat.succ.inj fitting).symm (by simpa using several)
  | case4 word rest gap gaps _ ih =>
      simp [ih (Nat.succ.inj fitting)]
      omega

/-- The width of a line is that of its words, its gaps and its indentation. -/
theorem WellSet.length_render {line : Line} (wellSet : line.WellSet) :
    line.render.length = line.indentation + line.words.flatten.length + line.gaps.sum := by
  rw [render, List.length_append, List.length_replicate, length_joinWords wellSet, Nat.add_assoc]

end Line

/-- What finishes a line. -/
inductive Occasion where
  /-- A word is added while lines are filled, and the line has no room for it. -/
  | word
  /-- An input line ends. -/
  | lineEnd
  /-- A paragraph ends. -/
  | paragraphEnd
deriving DecidableEq

/-- A line at the moment at which it is finished. -/
structure FinishedLine where
  occasion : Occasion
  /-- The settings in force. -/
  settings : Settings
  /-- Whether the line is the first of a paragraph. -/
  opensParagraph : Bool
  line : Line
deriving DecidableEq

namespace Composer

/-- The lines of rows that a composer finishes on one occasion. -/
def finishOn (composer : Composer) (occasion : Occasion) (rows : List Row) : List FinishedLine :=
  (composedLines rows).map (FinishedLine.mk occasion composer.settings composer.opensParagraph)

/-- The lines that an action finishes. The end of a paragraph adds the word being built before it
finishes the line that is left. -/
def finishedBy (composer : Composer) : Action → List FinishedLine
  | .addText _ | .change _ => []
  | .finishWord => composer.finishOn .word composer.finishWord.2
  | .addWord word => composer.finishOn .word (composer.addWord word).2
  | .endLine => composer.finishOn .lineEnd composer.endLine.2
  | .endParagraph =>
      composer.finishOn .word composer.finishWord.2 ++
        composer.finishWord.1.finishOn .paragraphEnd composer.finishWord.1.emitPlain.2

/-- The lines that actions finish one after the other. -/
def finishedLines (composer : Composer) : List Action → List FinishedLine
  | [] => []
  | action :: rest => composer.finishedBy action ++ (composer.step action).1.finishedLines rest

@[simp] theorem line_finishOn (composer : Composer) (occasion : Occasion) (rows : List Row) :
    (composer.finishOn occasion rows).map FinishedLine.line = composedLines rows := by
  rw [finishOn, List.map_map]
  exact List.map_id _

theorem line_finishedBy (composer : Composer) (action : Action) :
    (composer.finishedBy action).map FinishedLine.line =
      composedLines (composer.step action).2 := by
  cases action with
  | addText | change => rfl
  | finishWord | addWord | endLine => exact line_finishOn ..
  | endParagraph =>
      rw [finishedBy, List.map_append, line_finishOn, line_finishOn, ← composedLines_append]
      rfl

/-- The lines that are finished are the lines of the rows that a run finishes. -/
theorem line_finishedLines (composer : Composer) (actions : List Action) :
    (composer.finishedLines actions).map FinishedLine.line =
      composedLines (composer.run actions).2 := by
  induction actions generalizing composer with
  | nil => rfl
  | cons action rest ih =>
      rw [finishedLines, List.map_append, line_finishedBy, ih, ← composedLines_append]
      rfl

end Composer

/-! ## Justification -/

namespace FinishedLine

/-- Width of the words of the line and of the indentation before them. -/
def solidWidth (done : FinishedLine) : Nat :=
  done.line.indentation + done.line.words.flatten.length

/-- Number of gaps between the words of the line. -/
def gapCount (done : FinishedLine) : Nat :=
  done.line.words.length - 1

/-- Whether the line is stretched towards the text width. -/
def Stretched (done : FinishedLine) : Prop :=
  done.occasion = .word ∧ done.settings.justify = true

/-- How wide the gaps of a finished line are. They are what is left of rounded numbers of blanks,
each less the one before it, which never decrease. -/
structure Justified (done : FinishedLine) : Prop where
  indented : done.line.indentation = done.settings.effectiveIndentation done.opensParagraph
  wellSet : done.line.WellSet
  spread : done.line.gaps = spreadGaps done.line.gaps.sum done.line.words.length
  ascending : ∀ index, blanksBefore index done.line.gaps.sum done.line.words.length ≤
    blanksBefore (index + 1) done.line.gaps.sum done.line.words.length
  bounded : ∀ gap ∈ done.line.gaps, 1 ≤ gap ∧ gap ≤ 3
  even : ∀ gap ∈ done.line.gaps, ∀ other ∈ done.line.gaps, gap ≤ other + 1
  plain : ¬done.Stretched → ∀ gap ∈ done.line.gaps, gap = 1
  stretched : done.Stretched → done.line.gaps.sum =
    max done.gapCount (min (done.settings.textWidth - done.solidWidth) (3 * done.gapCount))
  reaches : done.Stretched → done.solidWidth + done.gapCount ≤ done.settings.textWidth →
    done.settings.textWidth ≤ done.solidWidth + 3 * done.gapCount →
    done.line.render.length = done.settings.textWidth
  narrow : done.Stretched → done.line.render.length < done.settings.textWidth →
    ∀ gap ∈ done.line.gaps, gap = 3
  wide : done.Stretched → done.settings.textWidth < done.line.render.length →
    done.settings.textWidth < done.solidWidth + done.gapCount

variable {done : FinishedLine} {blanks : Nat}

/-- The number of blanks that are spread over the gaps of a line settles how wide the gaps are. -/
theorem justified_of_spread (inhabited : done.line.words ≠ [])
    (set : done.line = .spread (done.settings.effectiveIndentation done.opensParagraph) blanks
      done.line.words)
    (least : done.gapCount ≤ blanks) (most : blanks ≤ 3 * done.gapCount)
    (plain : ¬done.Stretched → blanks = done.gapCount)
    (stretched : done.Stretched → blanks =
      max done.gapCount (min (done.settings.textWidth - done.solidWidth) (3 * done.gapCount))) :
    done.Justified := by
  have gaps : done.line.gaps = spreadGaps blanks done.line.words.length := congrArg Line.gaps set
  have wellSet : done.line.WellSet := set ▸ Line.wellSet_spread _ _ inhabited
  have sum : done.line.gaps.sum = blanks := by
    rw [gaps]
    by_cases several : done.line.words.length < 2
    · have none : done.gapCount = 0 := by rw [gapCount]; omega
      rw [List.eq_nil_of_length_eq_zero ((length_spreadGaps ..).trans none), List.sum_nil]
      omega
    · exact sum_spreadGaps several
  have length : done.line.render.length = done.solidWidth + blanks := by
    rw [wellSet.length_render, sum, solidWidth]
  have atLeast {bound gap : Nat} (enough : bound * done.gapCount ≤ blanks)
      (member : gap ∈ done.line.gaps) : bound ≤ gap := le_gap enough (gaps ▸ member)
  have atMost {bound gap : Nat} (few : blanks ≤ bound * done.gapCount)
      (member : gap ∈ done.line.gaps) : gap ≤ bound := gap_le few (gaps ▸ member)
  refine ⟨congrArg Line.indentation set, wellSet, sum ▸ gaps, fun index => ?_, ?_, ?_, ?_,
    sum ▸ stretched, ?_, ?_, ?_⟩
  · exact blanksBefore_mono (Nat.le_succ index) ..
  · exact fun gap member => ⟨atLeast (by omega) member, atMost most member⟩
  · intro gap member other memberOther
    rw [gaps] at member memberOther
    exact gap_le_succ member memberOther
  · intro unstretched gap member
    have single := plain unstretched
    exact Nat.le_antisymm (atMost (by omega) member) (atLeast (by omega) member)
  · intro filled wide narrow
    have blanks := stretched filled
    omega
  · intro filled short gap member
    have blanks := stretched filled
    exact Nat.le_antisymm (atMost most member) (atLeast (by omega) member)
  · intro filled long
    have blanks := stretched filled
    omega

end FinishedLine

namespace Composer

theorem finishOn_emit (composer : Composer) (occasion : Occasion) (blanks : Nat) :
    composer.finishOn occasion (composer.emit blanks).2 =
      [⟨occasion, composer.settings, composer.opensParagraph,
        .spread composer.indentation blanks composer.words⟩] := by
  rw [finishOn, emit, composedLines_append, composedLines_skips]
  rfl

theorem justified_emitPlain (composer : Composer) {occasion : Occasion} (other : occasion ≠ .word) :
    ∀ done ∈ composer.finishOn occasion composer.emitPlain.2, done.Justified := by
  unfold emitPlain
  split
  · exact List.forall_mem_nil _
  · rename_i inhabited
    rw [finishOn_emit, List.forall_mem_singleton]
    exact FinishedLine.justified_of_spread inhabited rfl (Nat.le_refl _)
      (Nat.le_mul_of_pos_left _ (by omega)) (fun _ => rfl) fun stretched =>
        absurd stretched.1 other

/-- A word that is set alone has no gaps. -/
theorem justified_emit_push {composer : Composer} (empty : composer.words = [])
    (word : List Char) :
    ∀ done ∈ composer.finishOn .word ((composer.push word).emit 0).2, done.Justified := by
  have none : (composer.push word).words.length - 1 = 0 := by simp [push, empty]
  have inhabited : (composer.push word).words ≠ [] := by simp [push]
  change ∀ done ∈ (composer.push word).finishOn .word ((composer.push word).emit 0).2, _
  rw [finishOn_emit, List.forall_mem_singleton]
  refine FinishedLine.justified_of_spread inhabited rfl ?_ (Nat.zero_le _) ?_ ?_
  · exact Nat.le_of_eq none
  · exact fun _ => none.symm
  · intro _
    change 0 = max ((composer.push word).words.length - 1)
      (min _ (3 * ((composer.push word).words.length - 1)))
    rw [none, Nat.mul_zero, Nat.min_zero, Nat.max_self]

theorem justified_addWord (composer : Composer) (word : List Char) :
    ∀ done ∈ composer.finishOn .word (composer.addWord word).2, done.Justified := by
  unfold addWord
  split
  · exact List.forall_mem_nil _
  split
  · rename_i empty
    split
    · exact justified_emit_push empty word
    · exact List.forall_mem_nil _
  · rename_i inhabited
    split
    · change ∀ done ∈ composer.finishOn .word (composer.emit composer.filledBlanks).2, _
      rw [finishOn_emit, List.forall_mem_singleton]
      refine FinishedLine.justified_of_spread inhabited rfl composer.le_filledBlanks
        composer.filledBlanks_le ?_ fun stretched => if_pos stretched.2
      exact fun unstretched => if_neg fun justify => unstretched ⟨rfl, justify⟩
    · exact List.forall_mem_nil _

theorem justified_finishWord (composer : Composer) :
    ∀ done ∈ composer.finishOn .word composer.finishWord.2, done.Justified := by
  unfold finishWord
  split
  · exact List.forall_mem_nil _
  · exact justified_addWord { composer with word := [] } composer.word

theorem justified_finishedBy (composer : Composer) (action : Action) :
    ∀ done ∈ composer.finishedBy action, done.Justified := by
  cases action with
  | addText | change => exact List.forall_mem_nil _
  | finishWord => exact composer.justified_finishWord
  | addWord word => exact composer.justified_addWord word
  | endLine =>
      rw [finishedBy, endLine]
      split
      · exact List.forall_mem_nil _
      · exact composer.justified_emitPlain (by simp)
  | endParagraph =>
      exact List.forall_mem_append.mpr
        ⟨composer.justified_finishWord, composer.finishWord.1.justified_emitPlain (by simp)⟩

theorem justified_finishedLines (composer : Composer) (actions : List Action) :
    ∀ done ∈ composer.finishedLines actions, done.Justified := by
  induction actions generalizing composer with
  | nil => exact List.forall_mem_nil _
  | cons action rest ih =>
      exact List.forall_mem_append.mpr ⟨composer.justified_finishedBy action, ih _⟩

/-- **Justification.** Whatever is asked of a composer, all lines of the rows that it finishes are
justified under the settings that were in force when they were finished. -/
theorem justifies_lines (composer : Composer) (actions : List Action) :
    (composer.finishedLines actions).map FinishedLine.line =
      composedLines (composer.run actions).2 ∧
    ∀ done ∈ composer.finishedLines actions, done.Justified :=
  ⟨composer.line_finishedLines actions, composer.justified_finishedLines actions⟩

/-- The text width is lowered after three words have been added, and then a line is finished that is
as narrow as three words can be. -/
theorem justifies_lines_of_lowered_width :
    let composer := new Settings.main
    let actions : List Action :=
      [.addWord "alpha".toList, .addWord "beta".toList, .addWord "gamma".toList,
        .change (.measure .textWidth 5), .addWord "delta".toList]
    let done : FinishedLine := ⟨.word, { Settings.main with textWidth := 5 }, true,
      ⟨3, ["alpha", "beta", "gamma"].map String.toList, [1, 1]⟩⟩
    done ∈ composer.finishedLines actions ∧ done.Justified := by
  intro composer actions done
  have member : done ∈ composer.finishedLines actions := by decide
  exact ⟨member, (composer.justifies_lines actions).2 done member⟩

end Composer

end Galley
