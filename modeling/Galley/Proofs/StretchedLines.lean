import Galley.Proofs.AlikeComposers
import Galley.Proofs.FormatReport
import Galley.Proofs.TextConservation

/-! # Stretching lines changes nothing but gaps

Whether lines are stretched decides neither where they end nor how they are indented. So documents
that differ only in what they start with there are formatted in the same lines, on the same pages,
and two settings of a line differ at most in the gaps between its words
(`Galley.format_any_justification`).
-/

namespace Galley

open Composer (Action finishedWords)

/-- Presets with other choices of whether lines are stretched. -/
def Presets.withJustification (presets : Presets) (main notes : Bool) : Presets where
  main := { presets.main with justify := main }
  endnote := { presets.endnote with justify := notes }

/-- The number of blanks that a text starts with. -/
def leadingBlanks (text : List Char) : Nat :=
  (text.takeWhile (· = ' ')).length

/-! ## Two settings of a line -/

/-- Two texts show the same words behind the same indentation, or no words at all. -/
inductive Regapped : (words : List (List Char)) → (first second : List Char) → Prop
  | skip : Regapped [] [] []
  | line {words : List (List Char)} (indentation : Nat) (gaps others : List Nat)
      (inhabited : words ≠ []) (shown : [] ∉ words) :
      Regapped words (Line.render ⟨indentation, words, gaps⟩)
        (Line.render ⟨indentation, words, others⟩)

/-- Blanks at the start of a line end in its first word, unless this word consists of blanks. -/
theorem leadingBlanks_render {line : Line} {word : List Char}
    (starts : line.words.head? = some word) (solid : ∃ char ∈ word, char ≠ ' ') :
    leadingBlanks line.render = line.indentation + leadingBlanks word := by
  obtain ⟨rest, words⟩ := List.head?_eq_some_iff.mp starts
  obtain ⟨tail, joined⟩ := Line.joinWords_cons word rest line.gaps
  have ends : (word.takeWhile (· = ' ')).length ≠ word.length := by
    intro all
    obtain ⟨char, member, other⟩ := solid
    have blanks := List.takeWhile_sublist (· = ' ') |>.eq_of_length all
    have blank := List.all_eq_true.mp List.all_takeWhile char (blanks.symm ▸ member)
    exact other (of_decide_eq_true blank)
  rw [leadingBlanks, Line.render, words, joined,
    List.takeWhile_append_of_pos fun char member => by simp [List.eq_of_mem_replicate member],
    List.takeWhile_append, if_neg ends, List.length_append, List.length_replicate, leadingBlanks]

namespace Regapped

variable {words : List (List Char)} {first second : List Char}

theorem eq_nil_iff (same : Regapped words first second) : first = [] ↔ second = [] := by
  cases same with
  | skip => rfl
  | line indentation gaps others inhabited shown =>
      exact iff_of_false (Line.render_ne_nil inhabited shown) (Line.render_ne_nil inhabited shown)

theorem words_eq_nil (same : Regapped words first second) (empty : first = []) : words = [] := by
  cases same with
  | skip => rfl
  | line indentation gaps others inhabited shown =>
      exact absurd empty (Line.render_ne_nil inhabited shown)

theorem unblanked_eq (same : Regapped words first second) :
    first.filter (· ≠ ' ') = second.filter (· ≠ ' ') := by
  cases same with
  | skip => rfl
  | line indentation gaps others =>
      simp only [Line.render, List.filter_append]
      rw [Line.filter_joinWords (by simp), Line.filter_joinWords (by simp)]

theorem leadingBlanks_eq (same : Regapped words first second)
    (solid : ∀ word, words.head? = some word → ∃ char ∈ word, char ≠ ' ') :
    leadingBlanks first = leadingBlanks second := by
  cases same with
  | skip => rfl
  | line indentation gaps others inhabited =>
      obtain ⟨word, rest, rfl⟩ := List.exists_cons_of_ne_nil inhabited
      have starts := solid word rfl
      rw [leadingBlanks_render rfl starts, leadingBlanks_render rfl starts]

end Regapped

/-- Rows of words are two settings of these words, when the words of the first rows are known. -/
theorem regapped_rows {before : Composer} {added : List (List Char)}
    {after : Composer × List Row} (delivers : Composer.Delivers before added after)
    (whole : [] ∉ before.words ++ added) {others : List Row}
    (alike : List.Forall₂ (Row.Alike False) after.2 others) :
    List.Forall₂ (fun row other => Regapped row.words row.text other.text) after.2 others := by
  have shown : ∀ row ∈ after.2, [] ∉ row.words := by
    intro row among member
    rw [← delivers.words] at whole
    exact whole (List.mem_append_left _ (List.mem_flatMap.mpr ⟨row, among, member⟩))
  have inhabited : ∀ row ∈ after.2, ∀ line, row = .line line → line.words ≠ [] := by
    rintro row among line rfl
    exact (delivers.wellSet line among).words_ne_nil
  have both := (List.forall₂_and_left _ _).mpr ⟨fun row among =>
    And.intro (shown row among) (inhabited row among), alike⟩
  refine both.imp ?_
  rintro row other ⟨⟨shown, inhabited⟩, same⟩
  cases same with
  | skip => exact .skip
  | line indentation words => exact .line indentation _ _ (inhabited _ rfl) shown

/-! ## Two settings of a document -/

/-- A line of a document as it is set in two ways, with the words on it. -/
structure TwinLine where
  words : List (List Char)
  first : PageLine
  second : PageLine

/-- Two settings of a line on the same page: they differ at most in the gaps between the words. They
start with the same number of blanks unless the first word consists of blanks, which then run on
into the gap behind it. -/
structure TwinLine.SameButGaps (twin : TwinLine) : Prop where
  opensPage : twin.first.opensPage = twin.second.opensPage
  set : Regapped twin.words twin.first.text twin.second.text
  unblanked : twin.first.text.filter (· ≠ ' ') = twin.second.text.filter (· ≠ ' ')
  leading : (∀ word, twin.words.head? = some word → ∃ char ∈ word, char ≠ ' ') →
    leadingBlanks twin.first.text = leadingBlanks twin.second.text

theorem Regapped.sameButGaps {words : List (List Char)} {first second : List Char}
    (same : Regapped words first second) (opensPage : Bool) :
    TwinLine.SameButGaps ⟨words, ⟨opensPage, first⟩, ⟨opensPage, second⟩⟩ :=
  ⟨rfl, same, same.unblanked_eq, same.leadingBlanks_eq⟩

namespace Pages

/-- Pages that hold two settings of the same lines and have come equally far. -/
structure Twin (twins : List TwinLine) (first second : Pages) : Prop where
  height : first.height = second.height
  used : first.used = second.used
  firstHeld : first.held.toList = twins.map TwinLine.first
  secondHeld : second.held.toList = twins.map TwinLine.second
  same : ∀ twin ∈ twins, twin.SameButGaps

namespace Twin

variable {twins : List TwinLine} {first second : Pages}

theorem full_iff (twin : Twin twins first second) :
    first.height = some first.used ↔ second.height = some second.used := by
  rw [twin.height, twin.used]

theorem hasRoom_eq (twin : Twin twins first second) : first.hasRoom = second.hasRoom := by
  rw [hasRoom, hasRoom, twin.height, twin.used]

/-- Two settings of a line are put down on both pages or dropped from both. -/
theorem exists_placed (twin : Twin twins first second) {words : List (List Char)}
    {text other : List Char} (same : Regapped words text other) :
    ∃ more : List TwinLine, first.placed text = more.map TwinLine.first ∧
      second.placed other = more.map TwinLine.second ∧ (∀ twin ∈ more, twin.SameButGaps) ∧
      more.flatMap TwinLine.words = words := by
  by_cases empty : text = []
  · have emptyOther := same.eq_nil_iff.mp empty
    have words := same.words_eq_nil empty
    by_cases full : first.height = some first.used
    · refine ⟨[], ?_, ?_, by simp, words.symm⟩
      · rw [placed, if_pos empty, if_pos full, List.map_nil]
      · rw [placed, if_pos emptyOther, if_pos (twin.full_iff.mp full), List.map_nil]
    · refine ⟨[⟨[], ⟨false, []⟩, ⟨false, []⟩⟩], ?_, ?_, ?_, words.symm⟩
      · rw [placed, if_pos empty, if_neg full, List.map_singleton]
      · rw [placed, if_pos emptyOther, if_neg (mt twin.full_iff.mpr full), List.map_singleton]
      · intro line member
        rw [List.mem_singleton.mp member]
        exact Regapped.skip.sameButGaps false
  · refine ⟨[⟨words, ⟨!first.hasRoom, text⟩, ⟨!first.hasRoom, other⟩⟩], ?_, ?_, ?_, ?_⟩
    · rw [placed, if_neg empty, List.map_singleton]
    · rw [placed, if_neg (mt same.eq_nil_iff.mpr empty), ← twin.hasRoom_eq, List.map_singleton]
    · intro line member
      rw [List.mem_singleton.mp member]
      exact same.sameButGaps _
    · exact List.append_nil words

theorem add (twin : Twin twins first second) {words : List (List Char)} {text other : List Char}
    (same : Regapped words text other) :
    ∃ more, Twin (twins ++ more) (first.add text) (second.add other) ∧
      more.flatMap TwinLine.words = words := by
  obtain ⟨more, placed, placedOther, sameMore, words⟩ := twin.exists_placed same
  refine ⟨more, ⟨?_, ?_, ?_, ?_, ?_⟩, words⟩
  · rw [height_add, height_add, twin.height]
  · simp only [Pages.add, same.eq_nil_iff, twin.full_iff, twin.hasRoom_eq]
    split_ifs <;> simp [twin.used]
  · rw [held_add, twin.firstHeld, placed, List.map_append]
  · rw [held_add, twin.secondHeld, placedOther, List.map_append]
  · intro line member
    rcases List.mem_append.mp member with early | late
    · exact twin.same line early
    · exact sameMore line late

theorem addAll (twin : Twin twins first second) {rows others : List Row}
    (same : List.Forall₂ (fun row other => Regapped row.words row.text other.text) rows others) :
    ∃ more, Twin (twins ++ more) (first.addAll (rows.map Row.text))
        (second.addAll (others.map Row.text)) ∧
      more.flatMap TwinLine.words = rows.flatMap Row.words := by
  induction same generalizing twins first second with
  | nil => exact ⟨[], by simpa using twin, rfl⟩
  | cons row rest ih =>
      obtain ⟨line, next, words⟩ := twin.add row
      obtain ⟨more, last, wordsMore⟩ := ih next
      refine ⟨line ++ more, ?_, ?_⟩
      · rw [← List.append_assoc]
        exact last
      · rw [List.flatMap_append, words, wordsMore, List.flatMap_cons]

end Twin

end Pages

namespace Composer

theorem words_run_of_idle {composer : Composer} (idle : composer.Idle) {actions : List Action}
    (after : (composer.run actions).1.Idle) :
    (composer.run actions).2.flatMap Row.words = finishedWords [] actions := by
  have spelled := (composer.delivers_run actions).words
  rwa [after.1, idle.1, idle.2, List.append_nil, List.nil_append] at spelled

end Composer

namespace Stream

/-- Two streams with alike composers stay in step: what a run puts on their pages are two settings
of the same rows. -/
theorem exists_twins_run {first second : Stream} {twins : List TwinLine}
    (alike : first.composer.Alike False second.composer)
    (pages : Pages.Twin twins first.pages second.pages) (shown : [] ∉ first.composer.words)
    {actions : List Action} (gradual : ∀ whole, Action.addWord whole ∉ actions) :
    ∃ more, Pages.Twin (twins ++ more) (first.run actions).pages (second.run actions).pages ∧
      more.flatMap TwinLine.words = (first.composer.run actions).2.flatMap Row.words := by
  induction actions generalizing first second twins with
  | nil => exact ⟨[], by simpa using pages, rfl⟩
  | cons action rest ih =>
      have gradualRest : ∀ whole, Action.addWord whole ∉ rest := fun whole among =>
        gradual whole (List.mem_cons_of_mem _ among)
      have next := alike.step action
      have delivers := first.composer.delivers_step action
      have whole : [] ∉ first.composer.words ++ action.finishes first.composer.word := by
        have finished := @Composer.nil_not_mem_finishedWords first.composer.word [action]
          fun among => gradual [] (List.mem_singleton.mp among ▸ List.mem_cons_self)
        intro member
        rcases List.mem_append.mp member with held | added
        · exact shown held
        · exact finished (List.mem_append_left _ added)
      have under : Pages.Twin twins (first.pagesUnder action) (second.pagesUnder action) := by
        unfold pagesUnder
        split
        · exact { pages with height := rfl }
        · exact pages
      obtain ⟨line, stepped, words⟩ := under.addAll (regapped_rows delivers whole next.rows)
      have shownNext : [] ∉ (first.composer.step action).1.words := by
        rw [← delivers.words] at whole
        exact fun member => whole (List.mem_append_right _ member)
      obtain ⟨more, last, wordsMore⟩ := @ih (first.step action) (second.step action) _
        next.composers stepped shownNext gradualRest
      refine ⟨line ++ more, ?_, ?_⟩
      · rw [← List.append_assoc]
        exact last
      · rw [List.flatMap_append, words, wordsMore, Composer.run, List.flatMap_append]
        rfl

end Stream

/-! ## Formatting -/

/-- The words of a document in their order: those of the main text and then those of the
endnotes. -/
def documentWords (units : List Lexeme) : List (List Char) :=
  finishedWords [] (mainActions 1 units ++ [.endParagraph]) ++
    finishedWords [] (notesActions 1 (noteBodies units))

/-- The main text in two settings. -/
theorem exists_twins_mainStream (presets : Presets) (main notes : Bool) (units : List Lexeme) :
    ∃ twins, Pages.Twin twins (mainStream presets units).pages
        (mainStream (presets.withJustification main notes) units).pages ∧
      twins.flatMap TwinLine.words =
        finishedWords [] (mainActions 1 units ++ [.endParagraph]) := by
  have alike : Composer.Alike False (Stream.new presets.main).composer
      (Stream.new (presets.withJustification main notes).main).composer :=
    ⟨⟨rfl, rfl, rfl, rfl, rfl, False.elim⟩, rfl, rfl, rfl, rfl⟩
  have started : Pages.Twin [] (Stream.new presets.main).pages
      (Stream.new (presets.withJustification main notes).main).pages :=
    ⟨rfl, rfl, rfl, rfl, by simp⟩
  have gradual (whole : List Char) :
      Action.addWord whole ∉ mainActions 1 units ++ [.endParagraph] := by
    simp [addWord_not_mem_mainActions]
  obtain ⟨twins, ended, words⟩ :=
    Stream.exists_twins_run alike started List.not_mem_nil gradual
  exact ⟨twins, ended,
    words.trans (Composer.words_run_of_idle ⟨rfl, rfl⟩ (Composer.idle_run _ _))⟩

/-- The rows of the endnotes in two settings. -/
theorem regapped_notes (presets : Presets) (main notes : Bool) (bodies : List (List Char)) :
    List.Forall₂ (fun row other => Regapped row.words row.text other.text)
      ((emptyNotes presets).composer.run (notesActions 1 bodies)).2
      ((emptyNotes (presets.withJustification main notes)).composer.run
        (notesActions 1 bodies)).2 := by
  have alike : Composer.Alike False (emptyNotes presets).composer
      (emptyNotes (presets.withJustification main notes)).composer :=
    ⟨⟨rfl, rfl, rfl, rfl, rfl, False.elim⟩, rfl, rfl, rfl, rfl⟩
  refine regapped_rows (Composer.delivers_run _ _) ?_ (alike.run _).rows
  exact Composer.nil_not_mem_finishedWords (not_mem_notesActions _ _ (Or.inl ⟨[], rfl⟩))

/-- A document in two settings. -/
theorem exists_twins_composedPages (presets : Presets) (main notes : Bool) (units : List Lexeme) :
    ∃ twins, Pages.Twin twins (composedPages presets units)
        (composedPages (presets.withJustification main notes) units) ∧
      twins.flatMap TwinLine.words = documentWords units := by
  have idle : (emptyNotes presets).composer.Idle := ⟨rfl, rfl⟩
  have after := idle_notesActions idle 1 (noteBodies units)
  rw [Stream.composer_run] at after
  obtain ⟨twins, ended, words⟩ := exists_twins_mainStream presets main notes units
  obtain ⟨more, paged, wordsMore⟩ :=
    ended.addAll (regapped_notes presets main notes (noteBodies units))
  refine ⟨twins ++ more, ?_, ?_⟩
  · rw [composedPages, composedPages, lines_noteStream, lines_noteStream]
    exact paged
  · rw [List.flatMap_append, words, wordsMore, Composer.words_run_of_idle idle after]
    rfl

/-- Two reports of a document that is set in two ways: the same problem, or two settings of the same
lines, which show the words of the document, and the same warnings. -/
structure TwoSettings (presets other : Presets) (source : List Char) : Prop where
  warnings : (format presets source).warnings = (format other source).warnings
  failed : ∀ failure, (format presets source).outcome = .error failure ↔
    (format other source).outcome = .error failure
  completed : ∀ lines, (format presets source).outcome = .ok lines →
    lines = (pageLines presets source).map PageLine.render ∧
      (format other source).outcome = .ok ((pageLines other source).map PageLine.render) ∧
      ∃ twins : List TwinLine, pageLines presets source = twins.map TwinLine.first ∧
        pageLines other source = twins.map TwinLine.second ∧
        twins.flatMap TwinLine.words = documentWords (lexemes source) ∧
        ∀ twin ∈ twins, twin.SameButGaps

/-- **Stretching lines changes nothing but gaps.** -/
theorem format_any_justification {presets : Presets} (valid : presets.Valid) (main notes : Bool)
    (source : List Char) :
    TwoSettings presets (presets.withJustification main notes) source := by
  have validOther : (presets.withJustification main notes).Valid := by
    intro preset
    cases preset with
    | main => exact valid .main
    | endnote => exact valid .endnote
  refine ⟨?_, ?_, ?_⟩
  · apply Array.toList_inj.mp
    rw [warnings_format valid, warnings_format validOther]
  · intro failure
    rw [outcome_format_eq valid, outcome_format_eq validOther]
    split <;> simp
  · intro lines formatted
    rw [outcome_format_eq valid] at formatted
    rw [outcome_format_eq validOther]
    cases clean : firstProblem? .normal (tokens source) with
    | some problem => simp [clean] at formatted
    | none =>
        rw [clean] at formatted
        obtain ⟨twins, paged, words⟩ :=
          exists_twins_composedPages presets main notes (lexemes source)
        rw [pageLines_eq valid clean, pageLines_eq validOther clean]
        exact ⟨(Except.ok.inj formatted).symm, rfl, twins, paged.firstHeld, paged.secondHeld,
          words, paged.same⟩

/-- A line that is stretched in one of two settings. -/
theorem format_any_justification_of_two_lines :
    let source := "\\textwidth\x7b10\x7d\\parindent\x7b2\x7da b ccccc d".toList
    let unstretched := Presets.default.withJustification false true
    pageLines .default source = [⟨false, "  a   b".toList⟩, ⟨false, "ccccc d".toList⟩] ∧
      pageLines unstretched source = [⟨false, "  a b".toList⟩, ⟨false, "ccccc d".toList⟩] ∧
      ∃ twins : List TwinLine, pageLines .default source = twins.map TwinLine.first ∧
        pageLines unstretched source = twins.map TwinLine.second ∧
        twins.flatMap TwinLine.words = ["a", "b", "ccccc", "d"].map String.toList ∧
        ∀ twin ∈ twins, twin.SameButGaps := by
  intro source unstretched
  have valid : Presets.default.Valid := Presets.invalid?_eq_none_iff.mp rfl
  have formatted : (format .default source).outcome =
      .ok ["  a   b".toList, "ccccc d".toList] := by
    decide +kernel
  obtain ⟨-, -, twins, first, second, words, same⟩ :=
    (format_any_justification valid false true source).completed _ formatted
  refine ⟨by decide +kernel, by decide +kernel, twins, first, second, ?_, same⟩
  rw [words]
  decide +kernel

/-- A word of blanks at the start of a line runs on into the gap behind it, so a line that is
stretched may start with more blanks than one that is not. -/
theorem leading_blanks_depend_on_justification :
    let source := "\\textwidth\x7b10\x7d\\parindent\x7b0\x7d\\  a bbbbbbbbb".toList
    let unstretched := Presets.default.withJustification false false
    (format .default source).outcome = .ok ["    a".toList, "bbbbbbbbb".toList] ∧
      (format unstretched source).outcome = .ok ["  a".toList, "bbbbbbbbb".toList] ∧
      leadingBlanks "    a".toList ≠ leadingBlanks "  a".toList := by
  decide +kernel

end Galley
