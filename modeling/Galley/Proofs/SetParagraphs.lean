import Galley.Proofs.GreedyFilling
import Galley.Proofs.Outlines
import Galley.Proofs.SpreadBlanks

/-! # Paragraphs are set again in the same lines

A paragraph that is read from the lines that it is set in has the same words on the same lines, or,
while lines are filled, the same words. So it is set in the same lines again
(`Galley.Composer.exists_set`), and so are all paragraphs of a text (`Galley.exists_sets`).
-/

namespace Galley

open Composer (Action between paragraphActions)

namespace Composer

/-! ## What composing can do -/

/-- What an operation that changes no setting can do: leave the rows alone, set the line being built
with a blank in each gap at least, or one of these after the other. -/
inductive Moves : Composer → Composer × List Row → Prop
  | quiet {before after : Composer} (settings : after.settings = before.settings)
      (untouched : after.untouched = before.untouched) : Moves before (after, [])
  | emit (before : Composer) {blanks : Nat} (enough : before.words.length - 1 ≤ blanks) :
      Moves before (before.emit blanks)
  | trans {before : Composer} {mid after : Composer × List Row} (first : Moves before mid)
      (second : Moves mid.1 after) : Moves before (after.1, mid.2 ++ after.2)

theorem moves_emitPlain (composer : Composer) : Moves composer composer.emitPlain := by
  unfold emitPlain
  split
  · exact .quiet rfl rfl
  · exact .emit composer (Nat.le_refl _)

/-- An operation may end in one that finishes no row. -/
theorem Moves.then_quiet {before after : Composer} {mid : Composer × List Row}
    (first : Moves before mid) (settings : after.settings = mid.1.settings)
    (untouched : after.untouched = mid.1.untouched) : Moves before (after, mid.2) := by
  have both := first.trans (.quiet settings untouched)
  rwa [List.append_nil] at both

theorem moves_addWord (composer : Composer) (word : List Char) :
    Moves composer (composer.addWord word) := by
  have pushed : Moves composer (composer.push word, []) := .quiet rfl rfl
  unfold addWord
  split_ifs with fill empty wide overfull
  · exact pushed.trans (.emit (composer.push word) (by simp [push, empty]))
  · exact pushed
  · exact (Moves.emit composer composer.le_filledBlanks).then_quiet rfl rfl
  · exact pushed
  · exact pushed

theorem moves_finishWord (composer : Composer) : Moves composer composer.finishWord := by
  unfold finishWord
  split
  · exact .quiet rfl rfl
  · have started : Moves composer ({ composer with word := [] }, []) := .quiet rfl rfl
    exact started.trans (moves_addWord _ _)

theorem moves_step (composer : Composer) {action : Action}
    (fixed : ∀ change, action ≠ .change change) : Moves composer (composer.step action) := by
  cases action with
  | addText text => exact .quiet rfl rfl
  | finishWord => exact composer.moves_finishWord
  | addWord word => exact composer.moves_addWord word
  | endLine =>
      rw [step, endLine]
      split
      · exact .quiet rfl rfl
      · exact composer.moves_emitPlain
  | endParagraph =>
      have closed := composer.moves_finishWord.trans composer.finishWord.1.moves_emitPlain
      exact closed.then_quiet rfl rfl
  | change change => exact absurd rfl (fixed change)

theorem moves_run (composer : Composer) {actions : List Action}
    (fixed : ∀ change, Action.change change ∉ actions) :
    Moves composer (composer.run actions) := by
  induction actions generalizing composer with
  | nil => exact .quiet rfl rfl
  | cons action rest ih =>
      have first : ∀ change, action ≠ .change change := fun change same =>
        fixed change (same ▸ List.mem_cons_self)
      exact (composer.moves_step first).trans
        (ih _ fun change member => fixed change (List.mem_cons_of_mem _ member))

namespace Moves

variable {before : Composer} {after : Composer × List Row}

theorem settings_eq (moves : Moves before after) : after.1.settings = before.settings := by
  induction moves with
  | quiet settings => exact settings
  | emit => rfl
  | trans first second ih later => exact later.trans ih

/-- A composer is untouched until it finishes a row. -/
theorem untouched_iff (moves : Moves before after) :
    after.1.untouched = true ↔ before.untouched = true ∧ after.2 = [] := by
  induction moves with
  | quiet settings untouched => simp [untouched]
  | emit => simp [Composer.emit]
  | trans first second ih later => rw [later, ih, List.append_eq_nil_iff, and_assoc]

/-- Neighbouring words on a line do not touch. -/
theorem spaced (moves : Moves before after) {line : Line} (member : Row.line line ∈ after.2) :
    ∀ gap ∈ line.gaps, 0 < gap := by
  induction moves with
  | quiet => simp at member
  | emit composer enough =>
      rcases List.mem_append.mp member with skipped | last
      · exact absurd skipped (composer.not_mem_skips line)
      · cases List.mem_singleton.mp last
        exact fun gap among => le_gap (by omega) among
  | trans first second ih later =>
      rcases List.mem_append.mp member with early | late
      · exact ih early
      · exact later late

end Moves

/-- At the end of a paragraph, all that is left of it is whether there were any rows. -/
theorem run_endParagraph_eq (composer : Composer) {actions : List Action}
    (fixed : ∀ change, Action.change change ∉ actions) :
    (composer.run (actions ++ [.endParagraph])).1 = between composer.settings
      (composer.untouched && (composer.run (actions ++ [.endParagraph])).2.isEmpty) := by
  have idle := composer.idle_run actions
  have moves : Moves composer (composer.run (actions ++ [.endParagraph])) :=
    composer.moves_run (by simpa using fixed)
  have opens : (composer.run (actions ++ [.endParagraph])).1.opensParagraph = true := by
    rw [run_append]
    rfl
  have untouched : (composer.run (actions ++ [.endParagraph])).1.untouched =
      (composer.untouched && (composer.run (actions ++ [.endParagraph])).2.isEmpty) := by
    rw [Bool.eq_iff_iff, moves.untouched_iff, Bool.and_eq_true, List.isEmpty_iff]
  rw [← moves.settings_eq, ← untouched]
  generalize (composer.run (actions ++ [.endParagraph])).1 = after at idle opens ⊢
  obtain ⟨settings, word, words, opensParagraph, untouched⟩ := after
  obtain ⟨rfl, rfl⟩ := idle
  cases opens
  rfl

/-! ## The lines of a paragraph -/

/-- While filling, it does not matter on which lines the words of a paragraph stand. -/
theorem run_paragraphActions_of_fill {composer : Composer} (fill : composer.settings.fill = true)
    (lines : List (List (List Char))) :
    composer.run (paragraphActions lines) = composer.run (paragraph lines.flatten) := by
  induction lines generalizing composer with
  | nil => rfl
  | cons words lines ih =>
      have fillAfter : (composer.run (words.map .addWord)).1.settings.fill = true := by
        rw [(moves_run _ (by simp)).settings_eq, fill]
      have unended : (composer.run (words.map .addWord)).1.endLine = (_, []) := if_pos fillAfter
      rw [paragraphActions_cons, lineActions, List.append_assoc, List.flatten_cons, paragraph,
        List.map_append, List.append_assoc]
      refine run_append_congr ?_
      rw [← paragraph, ← ih fillAfter, List.singleton_append, run, step, unended]
      rfl

theorem run_addWords_of_not_fill {composer : Composer} (unfilled : composer.settings.fill = false)
    (words : List (List Char)) :
    composer.run (words.map .addWord) =
      ({ composer with words := composer.words ++ words }, []) := by
  induction words generalizing composer with
  | nil => simp [run]
  | cons word words ih =>
      have added : composer.step (.addWord word) = (composer.push word, []) := by
        simp [step, addWord, unfilled]
      have later := @ih (composer.push word) unfilled
      rw [List.map_cons, run, added, later]
      simp [push]

/-- Without filling, a line of words is set as it stands. -/
theorem run_lineActions_of_not_fill {composer : Composer}
    (unfilled : composer.settings.fill = false) (empty : composer.words = [])
    {words : List (List Char)} (inhabited : words ≠ []) :
    composer.run (lineActions words) =
      ({ composer with opensParagraph := false, untouched := false },
        composer.skips ++ [.line (.spread composer.indentation (words.length - 1) words)]) := by
  obtain ⟨settings, word, held, opensParagraph, untouched⟩ := composer
  cases empty
  rw [lineActions, run_append, run_addWords_of_not_fill unfilled, List.nil_append]
  simp only [List.nil_append, run, step, endLine, emitPlain, inhabited, ↓reduceIte, emit,
    List.append_nil]
  rw [if_neg (Bool.eq_false_iff.mp unfilled)]
  rfl

theorem exists_set_of_not_fill {composer : Composer} (unfilled : composer.settings.fill = false)
    (idle : composer.Idle) {lines : List (List (List Char))}
    (inhabited : ∀ words ∈ lines, words ≠ []) :
    ∃ set : List Line, (composer.run (paragraphActions lines)).2 = composer.paragraphRows set ∧
      set.map Line.words = lines := by
  induction lines generalizing composer with
  | nil =>
      refine ⟨[], ?_, rfl⟩
      rw [paragraphActions, List.flatMap_nil, List.nil_append, run, step,
        endParagraph_of_whole idle.2, emitPlain_of_nil idle.1]
      rfl
  | cons words lines ih =>
      obtain ⟨first, later⟩ := List.forall_mem_cons.mp inhabited
      let after : Composer := { composer with opensParagraph := false, untouched := false }
      obtain ⟨set, rows, same⟩ := @ih after unfilled idle later
      rw [paragraphRows_continued rfl] at rows
      refine ⟨.spread composer.indentation (words.length - 1) words :: set, ?_, ?_⟩
      · rw [paragraphActions_cons, run_append,
          run_lineActions_of_not_fill unfilled idle.1 first, rows]
        simp [paragraphRows]
      · rw [List.map_cons, same]
        rfl

/-- **A paragraph is set again in the same lines** if it is read from the lines that it is set
in. -/
theorem exists_set (settings : Settings) (untouched : Bool) {lines : List (List (List Char))}
    (inhabited : ∀ words ∈ lines, words ≠ []) :
    ∃ set : List Line, ((between settings untouched).run (paragraphActions lines)).2 =
        (between settings untouched).paragraphRows set ∧
      set.flatMap Line.words = lines.flatten ∧
      (between settings untouched).run (paragraphActions (set.map Line.words)) =
        (between settings untouched).run (paragraphActions lines) := by
  cases fill : settings.fill with
  | true =>
      obtain ⟨set, rows, greedy⟩ :=
        (between settings untouched).greedyLines_run lines.flatten fill rfl (Or.inl (Nat.zero_le _))
      have same : (set.map Line.words).flatten = lines.flatten := greedy.cut.flatten
      refine ⟨set, ?_, same, ?_⟩
      · rw [run_paragraphActions_of_fill fill, rows]
      · rw [run_paragraphActions_of_fill fill, run_paragraphActions_of_fill fill, same]
  | false =>
      obtain ⟨set, rows, same⟩ :=
        @exists_set_of_not_fill (between settings untouched) fill ⟨rfl, rfl⟩ lines inhabited
      refine ⟨set, rows, ?_, by rw [same]⟩
      rw [← same, List.flatMap_def]

end Composer

/-! ## Paragraphs that have been set -/

/-- A line that can be read back: there are blanks in every gap, and none in the words. -/
structure Line.Legible (line : Line) : Prop where
  wellSet : line.WellSet
  spaced : ∀ gap ∈ line.gaps, 0 < gap
  words : ∀ word ∈ line.words, IsWord word

/-- The rows of paragraphs that have been set one after the other. -/
def setRows (settings : Settings) : (untouched : Bool) → (sets : List (List Line)) → List Row
  | _, [] => []
  | untouched, set :: rest =>
      (between settings untouched).skips ++ set.map .line ++ setRows settings false rest

/-- Paragraphs that have been set: each has lines, and all lines can be read back. -/
def LegibleSets (sets : List (List Line)) : Prop :=
  ∀ set ∈ sets, set ≠ [] ∧ ∀ line ∈ set, line.Legible

/-- A paragraph of words is set in lines that can be read back, behind the rows that are skipped
before it, and what is read back is set in the same lines. -/
theorem exists_legible_set (settings : Settings) (untouched : Bool)
    {lines : List (List (List Char))} (filled : lines ≠ [])
    (inhabited : ∀ words ∈ lines, words ≠ [] ∧ ∀ word ∈ words, IsWord word) :
    ∃ set : List Line, set ≠ [] ∧ (∀ line ∈ set, line.Legible) ∧
      (between settings untouched).run (paragraphActions lines) =
        (between settings false, (between settings untouched).skips ++ set.map .line) ∧
      (between settings untouched).run (paragraphActions (set.map Line.words)) =
        (between settings false, (between settings untouched).skips ++ set.map .line) := by
  obtain ⟨set, rows, shown, again⟩ :=
    Composer.exists_set settings untouched fun words among => (inhabited words among).1
  have setFilled : set ≠ [] := by
    rintro rfl
    obtain ⟨words, more, rfl⟩ := List.exists_cons_of_ne_nil filled
    rw [List.flatMap_nil, List.flatten_cons] at shown
    exact (inhabited words List.mem_cons_self).1 (List.append_eq_nil_iff.mp shown.symm).1
  rw [Composer.paragraphRows, if_neg setFilled] at rows
  have delivers := (between settings untouched).delivers_run (paragraphActions lines)
  have moves := (between settings untouched).moves_run
    (Composer.change_not_mem_paragraphActions lines)
  have legible : ∀ line ∈ set, line.Legible := by
    intro line among
    have member : Row.line line ∈
        ((between settings untouched).run (paragraphActions lines)).2 := by
      rw [rows]
      exact List.mem_append_right _ (List.mem_map_of_mem among)
    refine ⟨delivers.wellSet line member, moves.spaced member, fun word held => ?_⟩
    have listed : word ∈ lines.flatten := by
      rw [← shown]
      exact List.mem_flatMap.mpr ⟨line, among, held⟩
    obtain ⟨words, wordsAmong, held⟩ := List.mem_flatten.mp listed
    exact (inhabited words wordsAmong).2 word held
  have after : ((between settings untouched).run (paragraphActions lines)).1 =
      between settings false := by
    rw [paragraphActions, Composer.run_endParagraph_eq _ (by simp [Composer.lineActions]),
      ← paragraphActions, rows]
    simp [between, setFilled]
  have reached : (between settings untouched).run (paragraphActions lines) =
      (between settings false, (between settings untouched).skips ++ set.map .line) :=
    Prod.ext after rows
  exact ⟨set, setFilled, legible, reached, again.trans reached⟩

/-- **Paragraphs are set again in the same lines** if they are read from the lines that they are
set in. -/
theorem exists_sets (settings : Settings) (untouched : Bool)
    {paragraphs : List (List (List (List Char)))} (inhabited : Inhabited paragraphs) :
    ∃ sets : List (List Line), LegibleSets sets ∧
      ((between settings untouched).run (paragraphs.flatMap paragraphActions)).2 =
        setRows settings untouched sets ∧
      ((between settings untouched).run
          ((sets.map (List.map Line.words)).flatMap paragraphActions)).2 =
        setRows settings untouched sets := by
  induction paragraphs generalizing untouched with
  | nil => exact ⟨[], by simp [LegibleSets], rfl, rfl⟩
  | cons lines rest ih =>
      obtain ⟨⟨filled, words⟩, later⟩ := List.forall_mem_cons.mp inhabited
      obtain ⟨set, setFilled, setLegible, first, firstAgain⟩ :=
        exists_legible_set settings untouched filled words
      obtain ⟨sets, legible, rows, again⟩ := ih false later
      refine ⟨set :: sets, List.forall_mem_cons.mpr ⟨⟨setFilled, setLegible⟩, legible⟩, ?_, ?_⟩
      · rw [List.flatMap_cons, Composer.run_append, first, rows, setRows]
      · rw [List.map_cons, List.flatMap_cons, Composer.run_append, firstAgain, again, setRows]

end Galley
