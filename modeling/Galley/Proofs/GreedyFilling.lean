import Mathlib.Data.List.Flatten
import Galley.Proofs.PagedLines

/-! # Filling is greedy

While a composer fills, it cuts the words of a paragraph into lines greedily: a line takes words as
long as the next one fits with a blank before it, and a word that fits on no line is set alone. Main
statements: the lines of a paragraph are such a cut (`Galley.Composer.greedyLines_run`), and
words have only one such cut (`Galley.GreedyCut.unique`).
-/

namespace Galley

/-- Indentation of a line of a paragraph. If `opens` holds, the paragraph starts with the line of
index zero, otherwise it started before. -/
def Settings.lineIndentation (settings : Settings) (opens : Bool) (index : Nat) : Nat :=
  settings.effectiveIndentation (opens && index == 0)

/-- Whether words with single blanks between them end within the text width. -/
def Settings.Fits (settings : Settings) (indentation : Nat) (group : List (List Char)) : Prop :=
  indentation + group.flatten.length + (group.length - 1) ≤ settings.textWidth

instance (settings : Settings) (indentation : Nat) (group : List (List Char)) :
    Decidable (settings.Fits indentation group) :=
  inferInstanceAs (Decidable (_ ≤ _))

/-- Words that fit on a line still fit if others are left out. -/
theorem Settings.Fits.sublist {settings : Settings} {indentation : Nat}
    {group part : List (List Char)} (fits : settings.Fits indentation group)
    (within : part.Sublist group) : settings.Fits indentation part := by
  have letters := within.flatten.length_le
  have count := within.length_le
  unfold Fits at fits ⊢
  omega

/-- A cut of words into groups, one for each line, with a single word on each line or words that
fit on it. -/
structure FittingCut (settings : Settings) (opens : Bool) (words : List (List Char))
    (groups : List (List (List Char))) : Prop where
  flatten : groups.flatten = words
  inhabited : [] ∉ groups
  fits : ∀ index group, groups[index]? = some group →
    group.length = 1 ∨ settings.Fits (settings.lineIndentation opens index) group

namespace FittingCut

variable {settings : Settings} {opens : Bool} {words group : List (List Char)}
  {groups : List (List (List Char))}

theorem tail (cut : FittingCut settings opens words (group :: groups)) :
    FittingCut settings false groups.flatten groups where
  flatten := rfl
  inhabited := fun member => cut.inhabited (List.mem_cons_of_mem _ member)
  fits := by
    intro index other found
    simpa [Settings.lineIndentation] using cut.fits (index + 1) other found

theorem eq_nil_iff (cut : FittingCut settings opens words groups) : words = [] ↔ groups = [] := by
  rw [← cut.flatten]
  cases groups with
  | nil => exact iff_of_true rfl rfl
  | cons group groups =>
      have inhabited : group ≠ [] := fun empty => cut.inhabited (empty ▸ List.mem_cons_self)
      exact iff_of_false (List.append_ne_nil_of_left_ne_nil inhabited _) (List.cons_ne_nil _ _)

end FittingCut

/-- A cut of words into groups, one for each line, that is greedy: each group is a single word or
fits on its line, and the first word of the next group would not fit on that line. -/
structure GreedyCut (settings : Settings) (opens : Bool) (words : List (List Char))
    (groups : List (List (List Char))) : Prop where
  flatten : groups.flatten = words
  inhabited : [] ∉ groups
  fits : ∀ index group, groups[index]? = some group →
    group.length = 1 ∨ settings.Fits (settings.lineIndentation opens index) group
  full : ∀ index group next word, groups[index]? = some group → groups[index + 1]? = some next →
    next.head? = some word →
      settings.textWidth <
        settings.lineIndentation opens index + group.flatten.length + word.length + group.length

namespace GreedyCut

variable {settings : Settings} {opens : Bool}

theorem nil : GreedyCut settings opens [] [] where
  flatten := rfl
  inhabited := List.not_mem_nil
  fits := by simp
  full := by simp

theorem cons {group rest : List (List Char)} {groups : List (List (List Char))}
    (inhabited : group ≠ [])
    (fits : group.length = 1 ∨ settings.Fits (settings.effectiveIndentation opens) group)
    (full : ∀ word ∈ rest.head?, settings.textWidth <
      settings.effectiveIndentation opens + group.flatten.length + word.length + group.length)
    (later : GreedyCut settings false rest groups) :
    GreedyCut settings opens (group ++ rest) (group :: groups) where
  flatten := by rw [List.flatten_cons, later.flatten]
  inhabited := by
    intro member
    rcases List.mem_cons.mp member with same | member
    · exact inhabited same.symm
    · exact later.inhabited member
  fits := by
    intro index other found
    cases index with
    | zero =>
        cases Option.some.inj found
        simpa [Settings.lineIndentation] using fits
    | succ index => simpa [Settings.lineIndentation] using later.fits index other found
  full := by
    intro index other next word found follows starts
    cases index with
    | zero =>
        cases Option.some.inj found
        have head : rest.head? = some word := by
          rw [← later.flatten]
          cases groups with
          | nil => simp at follows
          | cons first groups =>
              cases Option.some.inj follows
              rw [List.flatten_cons, List.head?_append, starts, Option.some_or]
        simpa [Settings.lineIndentation] using full word head
    | succ index =>
        simpa [Settings.lineIndentation] using later.full index other next word found follows starts

theorem fitting {words : List (List Char)} {groups : List (List (List Char))}
    (cut : GreedyCut settings opens words groups) : FittingCut settings opens words groups :=
  ⟨cut.flatten, cut.inhabited, cut.fits⟩

theorem tail {words group : List (List Char)} {groups : List (List (List Char))}
    (cut : GreedyCut settings opens words (group :: groups)) :
    GreedyCut settings false groups.flatten groups where
  flatten := rfl
  inhabited := cut.fitting.tail.inhabited
  fits := cut.fitting.tail.fits
  full := by
    intro index other next word found follows starts
    simpa [Settings.lineIndentation] using
      cut.full (index + 1) other next word found follows starts

/-- The word behind the first group does not fit on the line of that group. -/
theorem not_fits_next {words group later : List (List Char)} {word : List Char}
    {groups : List (List (List Char))} (cut : GreedyCut settings opens words (group :: groups))
    (follows : groups.flatten = word :: later) :
    ¬settings.Fits (settings.lineIndentation opens 0) (group ++ [word]) := by
  cases groups with
  | nil => simp at follows
  | cons next groups =>
      have starts : next.head? = some word := by
        cases next with
        | nil => exact absurd (List.mem_cons_of_mem _ List.mem_cons_self) cut.inhabited
        | cons first next =>
            rw [List.flatten_cons, List.cons_append, List.cons.injEq] at follows
            rw [follows.1, List.head?_cons]
      have full := cut.full 0 group next word rfl rfl starts
      simp only [Settings.Fits, List.flatten_append, List.flatten_singleton, List.length_append,
        List.length_singleton]
      omega

/-- No line that takes the first group of a greedy cut also takes the word behind it. -/
theorem not_overtaken {words group later line : List (List Char)} {word : List Char}
    {groups : List (List (List Char))} (cut : GreedyCut settings opens words (group :: groups))
    (follows : groups.flatten = word :: later)
    (fits : line.length = 1 ∨ settings.Fits (settings.lineIndentation opens 0) line) :
    ¬(group ++ [word]).Sublist line := by
  intro taken
  have inhabited : group ≠ [] := fun empty => cut.inhabited (empty ▸ List.mem_cons_self)
  have counted := List.length_pos_iff.mpr inhabited
  have several := taken.length_le
  rw [List.length_append, List.length_singleton] at several
  have fits := fits.resolve_left (by omega)
  exact cut.not_fits_next follows (fits.sublist taken)

/-- **Greedy cuts are unique.** Words have only one greedy cut. -/
theorem unique {words : List (List Char)} {groups others : List (List (List Char))}
    (first : GreedyCut settings opens words groups)
    (second : GreedyCut settings opens words others) : groups = others := by
  induction groups generalizing opens words others with
  | nil =>
      cases first.flatten
      exact (second.fitting.eq_nil_iff.mp rfl).symm
  | cons group groups ih =>
      cases others with
      | nil =>
          cases second.flatten
          exact first.fitting.eq_nil_iff.mp rfl
      | cons other others =>
          have whole := first.flatten.trans second.flatten.symm
          rw [List.flatten_cons, List.flatten_cons] at whole
          have same : group = other := by
            rcases List.append_eq_append_iff.mp whole with
                ⟨more, longer, rest⟩ | ⟨more, longer, rest⟩
            · cases more with
              | nil => rw [longer, List.append_nil]
              | cons word more =>
                  refine absurd ?_ (first.not_overtaken rest (second.fits 0 other rfl))
                  simp [longer]
            · cases more with
              | nil => rw [longer, List.append_nil]
              | cons word more =>
                  refine absurd ?_ (second.not_overtaken rest (first.fits 0 group rfl))
                  simp [longer]
          rw [same, List.append_cancel_left_eq] at whole
          rw [same, ih first.tail (whole ▸ second.tail)]

end GreedyCut

/-- Lines of a paragraph that are cut greedily and stand where they should. -/
structure GreedyLines (settings : Settings) (opens : Bool) (words : List (List Char))
    (lines : List Line) : Prop where
  cut : GreedyCut settings opens words (lines.map Line.words)
  indented : ∀ index line, lines[index]? = some line →
    line.indentation = settings.lineIndentation opens index

namespace GreedyLines

variable {settings : Settings} {opens : Bool}

theorem nil : GreedyLines settings opens [] [] :=
  ⟨.nil, by simp⟩

theorem cons (line : Line) {rest : List (List Char)} {lines : List Line}
    (inhabited : line.words ≠ [])
    (indented : line.indentation = settings.effectiveIndentation opens)
    (fits : line.words.length = 1 ∨ settings.Fits (settings.effectiveIndentation opens) line.words)
    (full : ∀ word ∈ rest.head?, settings.textWidth < settings.effectiveIndentation opens +
      line.words.flatten.length + word.length + line.words.length)
    (later : GreedyLines settings false rest lines) :
    GreedyLines settings opens (line.words ++ rest) (line :: lines) where
  cut := later.cut.cons inhabited fits full
  indented := by
    intro index other found
    cases index with
    | zero =>
        cases Option.some.inj found
        simpa [Settings.lineIndentation] using indented
    | succ index => simpa [Settings.lineIndentation] using later.indented index other found

end GreedyLines

namespace Composer

/-- Adding words one by one and ending the paragraph. -/
def paragraph (words : List (List Char)) : List Action :=
  words.map .addWord ++ [.endParagraph]

theorem paragraph_cons (word : List Char) (rest : List (List Char)) :
    paragraph (word :: rest) = .addWord word :: paragraph rest := rfl

/-- The rows of lines that follow the skipped rows before them; without lines nothing is
skipped. -/
def paragraphRows (composer : Composer) (lines : List Line) : List Row :=
  if lines = [] then [] else composer.skips ++ lines.map .line

/-- The words in hand are at most one, or they fit on the line being built. -/
def Holds (composer : Composer) : Prop :=
  composer.words.length ≤ 1 ∨ composer.settings.Fits composer.indentation composer.words

theorem Holds.single_or_fits {composer : Composer} (holds : composer.Holds)
    (inhabited : composer.words ≠ []) :
    composer.words.length = 1 ∨ composer.settings.Fits composer.indentation composer.words := by
  have positive := List.length_pos_iff.mpr inhabited
  exact holds.imp_left fun few => Nat.le_antisymm few positive

theorem composedLines_paragraphRows (composer : Composer) (lines : List Line) :
    composedLines (composer.paragraphRows lines) = lines := by
  unfold paragraphRows
  split
  · rename_i none
    exact none.symm
  · rw [composedLines_append, composedLines_skips, List.nil_append, composedLines,
      List.filterMap_map]
    exact List.filterMap_some

theorem paragraphRows_texts {composer : Composer} {lines : List Line}
    (shown : ∀ line ∈ lines, line.render ≠ []) :
    ((composer.paragraphRows lines).map Row.text).filter (· ≠ []) = lines.map Line.render := by
  rw [inhabited_texts (by rwa [composedLines_paragraphRows]), composedLines_paragraphRows]

theorem paragraphRows_continued {composer : Composer} (continued : composer.opensParagraph = false)
    (lines : List Line) : composer.paragraphRows lines = lines.map .line := by
  unfold paragraphRows
  split
  · rename_i empty
    rw [empty, List.map_nil]
  · simp [skips, continued]

/-- The three ways to add a word while filling: the word fits and nothing is set, it is set alone
because it is too wide, or the words in hand are set without it. -/
theorem addWord_cases {composer : Composer} (word : List Char)
    (fill : composer.settings.fill = true) :
    ((composer.push word).Holds ∧ composer.addWord word = (composer.push word, [])) ∨
    (composer.words = [] ∧ composer.settings.textWidth < composer.indentation + word.length ∧
      composer.addWord word = (composer.push word).emit 0) ∨
    (composer.words ≠ [] ∧
      composer.settings.textWidth <
        composer.indentation + composer.words.flatten.length + word.length + composer.words.length ∧
      composer.addWord word = ((composer.emit composer.filledBlanks).1.push word,
        (composer.emit composer.filledBlanks).2)) := by
  simp only [addWord, fill, not_true_eq_false, ↓reduceIte]
  by_cases empty : composer.words = []
  · by_cases wide : composer.settings.textWidth < composer.solidWidth + word.length
    · refine Or.inr (Or.inl ⟨empty, ?_, by simp only [empty, wide, ↓reduceIte]⟩)
      simpa [solidWidth, empty] using wide
    · refine Or.inl ⟨Or.inl ?_, by simp only [empty, wide, ↓reduceIte]⟩
      simp [push, empty]
  · by_cases overfull : composer.settings.textWidth <
        composer.solidWidth + word.length + composer.words.length
    · exact Or.inr (Or.inr ⟨empty, overfull, by simp only [empty, overfull, ↓reduceIte]⟩)
    · refine Or.inl ⟨Or.inr ?_, by simp only [empty, overfull, ↓reduceIte]⟩
      simp only [Settings.Fits, push, indentation, List.flatten_append, List.flatten_cons,
        List.flatten_nil, List.append_nil, List.length_append, List.length_singleton]
      simp only [solidWidth, indentation] at overfull
      omega

/-- If a word makes a line be set, the rest of the paragraph continues behind that line. -/
theorem run_paragraph_of_flush {composer after : Composer} {line : Line} {word : List Char}
    {rest : List (List Char)} {lines : List Line}
    (flushed : composer.step (.addWord word) = (after, composer.skips ++ [.line line]))
    (continued : after.opensParagraph = false)
    (rows : (after.run (paragraph rest)).2 = after.paragraphRows lines) :
    (composer.run (paragraph (word :: rest))).2 = composer.paragraphRows (line :: lines) := by
  rw [paragraphRows_continued continued] at rows
  simp [paragraph_cons, run, flushed, rows, paragraphRows]

/-- A filling composer sets the words in hand and all words that follow in greedy lines. -/
theorem greedyLines_run (composer : Composer) (words : List (List Char))
    (fill : composer.settings.fill = true) (whole : composer.word = []) (holds : composer.Holds) :
    ∃ lines, (composer.run (paragraph words)).2 = composer.paragraphRows lines ∧
      GreedyLines composer.settings composer.opensParagraph (composer.words ++ words) lines := by
  induction words generalizing composer with
  | nil =>
      by_cases empty : composer.words = []
      · refine ⟨[], ?_, by rw [empty]; exact .nil⟩
        simp [paragraph, run, step, endParagraph, finishWord, emitPlain, whole, empty,
          paragraphRows]
      · let line := Line.spread composer.indentation (composer.words.length - 1) composer.words
        refine ⟨[line], ?_, GreedyLines.cons line empty rfl
          (holds.single_or_fits empty) (by simp) .nil⟩
        simp [paragraph, run, step, endParagraph, finishWord, emitPlain, whole, empty,
          paragraphRows, emit, line]
  | cons word rest ih =>
      rcases composer.addWord_cases word fill with
        ⟨holds, added⟩ | ⟨empty, wide, added⟩ | ⟨inhabited, overfull, added⟩
      · obtain ⟨lines, rows, greedy⟩ := ih (composer.push word) fill whole holds
        refine ⟨lines, ?_, ?_⟩
        · rw [paragraph_cons, run, step, added, rows]
          rfl
        · rwa [push, List.append_assoc] at greedy
      · let after : Composer :=
          { composer with words := [], opensParagraph := false, untouched := false }
        let line := Line.spread composer.indentation 0 [word]
        have flushed : composer.step (.addWord word) = (after, composer.skips ++ [.line line]) := by
          simp only [step, added, push, emit, empty, List.nil_append]
          rfl
        obtain ⟨lines, rows, greedy⟩ := ih after fill whole (Or.inl (by simp [after]))
        refine ⟨line :: lines, run_paragraph_of_flush flushed rfl rows, ?_⟩
        rw [empty]
        refine GreedyLines.cons line (List.cons_ne_nil _ _) rfl (Or.inl rfl) ?_ greedy
        intro next _
        simp only [line, Line.spread, List.flatten_singleton, List.length_singleton]
        simp only [indentation] at wide
        omega
      · let after : Composer :=
          { composer with words := [word], opensParagraph := false, untouched := false }
        let line := Line.spread composer.indentation composer.filledBlanks composer.words
        have flushed : composer.step (.addWord word) = (after, composer.skips ++ [.line line]) := by
          simp only [step, added]
          rfl
        obtain ⟨lines, rows, greedy⟩ := ih after fill whole (Or.inl (by simp [after]))
        refine ⟨line :: lines, run_paragraph_of_flush flushed rfl rows, ?_⟩
        refine GreedyLines.cons line inhabited rfl (holds.single_or_fits inhabited) ?_ greedy
        intro next starts
        cases Option.some.inj starts
        exact overfull

end Composer

/-- **Filling is greedy line breaking.** A stream that fills, holds no word and is about to start a
paragraph sets the words of the paragraph in lines that are cut greedily. These are all the lines of
text that it adds to its pages, and there is no other greedy cut of the words. -/
theorem Stream.fills_greedily {stream : Stream} {words : List (List Char)}
    (fill : stream.settings.fill = true) (whole : stream.composer.word = [])
    (empty : stream.composer.words = []) (opens : stream.composer.opensParagraph = true)
    (inhabited : ∀ word ∈ words, word ≠ []) :
    ∃ lines : List Line,
      (stream.composer.run (Composer.paragraph words)).2 = stream.composer.paragraphRows lines ∧
      (stream.run (Composer.paragraph words)).pages.textLines =
        stream.pages.textLines ++ lines.map Line.render ∧
      GreedyCut stream.settings true words (lines.map Line.words) ∧
      (∀ index line, lines[index]? = some line →
        line.indentation = stream.settings.lineIndentation true index) ∧
      ∀ groups, GreedyCut stream.settings true words groups → groups = lines.map Line.words := by
  obtain ⟨lines, rows, greedy⟩ :=
    stream.composer.greedyLines_run words fill whole (Or.inl (by simp [empty]))
  rw [empty, List.nil_append, opens] at greedy
  refine ⟨lines, rows, ?_, greedy.cut, greedy.indented, fun groups cut => cut.unique greedy.cut⟩
  have shown : ∀ line ∈ lines, line.render ≠ [] := by
    intro line member
    have group : line.words ∈ lines.map Line.words := List.mem_map_of_mem member
    cases spelled : line.words with
    | nil => exact absurd (spelled ▸ group) greedy.cut.inhabited
    | cons word later =>
        have nonempty : word ≠ [] := by
          apply inhabited
          rw [← greedy.cut.flatten]
          exact List.mem_flatten.mpr ⟨_, group, spelled ▸ List.mem_cons_self⟩
        obtain ⟨tail, joined⟩ := Line.joinWords_cons word later line.gaps
        rw [Line.render, spelled, joined]
        simp [nonempty]
  have fixed : ∀ height, .change (.measure .textHeight height) ∉ Composer.paragraph words := by
    simp [Composer.paragraph]
  rw [Stream.pages_run fixed, Pages.textLines_addAll, Stream.rowTexts, rows]
  congr 1
  exact Composer.paragraphRows_texts shown

/-- A word that is too wide stands alone, and the words before it keep their line. -/
theorem Stream.fills_greedily_overlong :
    let stream := Stream.new { Settings.main with textWidth := 9 }
    let words := ["to", "be", "incomprehensible", "or"].map String.toList
    ∃ lines : List Line,
      (stream.run (Composer.paragraph words)).pages.textLines = lines.map Line.render ∧
      lines.map Line.words =
        [["to", "be"], ["incomprehensible"], ["or"]].map (List.map String.toList) := by
  intro stream words
  obtain ⟨lines, _, texts, _, _, only⟩ :=
    @Stream.fills_greedily stream words rfl rfl rfl rfl (by decide)
  have last : GreedyCut stream.settings false (["or".toList] ++ []) [["or".toList]] :=
    .cons (by decide) (by decide) (by decide) .nil
  have overlong : GreedyCut stream.settings false (["incomprehensible".toList] ++ ["or".toList])
      [["incomprehensible".toList], ["or".toList]] :=
    .cons (by decide) (by decide) (by decide) last
  have whole : GreedyCut stream.settings true
      (["to".toList, "be".toList] ++ ["incomprehensible".toList, "or".toList])
      [["to".toList, "be".toList], ["incomprehensible".toList], ["or".toList]] :=
    .cons (by decide) (by decide) (by decide) overlong
  exact ⟨lines, texts, (only _ whole).symm⟩

end Galley
