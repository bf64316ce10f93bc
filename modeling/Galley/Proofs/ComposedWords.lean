import Galley.Layout.Stream

/-! # Words on their way through a composer

Whatever is asked of a composer, the words of the rows that it has finished, followed by the words
of the line being built, are the words finished so far in their order; no line is without words,
and every line has one gap between neighbouring words (`Galley.Composer.delivers_run`). Blanks
apart, a row shows its words and nothing else (`Galley.Row.solid_text`), so a composer that is given
no whole words shows exactly the text that it is given (`Galley.Composer.solid_run`).
-/

namespace Galley

/-- The characters of a text that are neither blanks nor page marks. -/
def solid (text : List Char) : List Char :=
  text.filter fun char => char ≠ ' ' && char ≠ pageBreak

@[simp] theorem solid_nil : solid [] = [] := rfl

@[simp] theorem solid_append (left right : List Char) :
    solid (left ++ right) = solid left ++ solid right :=
  List.filter_append _ _

@[simp] theorem solid_blanks (count : Nat) : solid (List.replicate count ' ') = [] := by
  simp [solid]

theorem intercalate_cons {α : Type} (separator first : List α) (rest : List (List α)) :
    separator.intercalate (first :: rest) = first ++ rest.flatMap (separator ++ ·) := by
  induction rest generalizing first with
  | nil => rw [List.intercalate_singleton, List.flatMap_nil, List.append_nil]
  | cons next rest ih =>
      rw [List.intercalate_cons_cons, ih, List.flatMap_cons, List.append_assoc, List.append_assoc]

theorem mem_intercalate {α : Type} {separator item : α} {parts : List (List α)}
    (member : item ∈ [separator].intercalate parts) :
    item = separator ∨ ∃ part ∈ parts, item ∈ part := by
  cases parts with
  | nil => simp at member
  | cons part rest =>
      rw [intercalate_cons] at member
      rcases List.mem_append.mp member with first | later
      · exact Or.inr ⟨part, List.mem_cons_self, first⟩
      · obtain ⟨other, among, found⟩ := List.mem_flatMap.mp later
        exact (List.mem_cons.mp found).imp_right fun inside =>
          ⟨other, List.mem_cons_of_mem _ among, inside⟩

namespace Line

/-- Gaps consist of blanks, so joined words show what the words show. -/
theorem filter_joinWords {shown : Char → Bool} (hidden : shown ' ' = false)
    (words : List (List Char)) (gaps : List Nat) :
    (joinWords words gaps).filter shown = words.flatten.filter shown := by
  fun_induction joinWords words gaps with
  | case1 => rfl
  | case2 => simp
  | case3 word rest _ ih => simp [ih]
  | case4 word rest gap gaps _ ih => simp [ih, hidden]

theorem solid_joinWords (words : List (List Char)) (gaps : List Nat) :
    solid (joinWords words gaps) = solid words.flatten :=
  filter_joinWords (by simp) words gaps

theorem joinWords_cons (word : List Char) (rest : List (List Char)) (gaps : List Nat) :
    ∃ tail, joinWords (word :: rest) gaps = word ++ tail := by
  cases rest with
  | nil => exact ⟨[], by simp [joinWords]⟩
  | cons next rest =>
      cases gaps with
      | nil => exact ⟨_, rfl⟩
      | cons gap gaps => exact ⟨_, List.append_assoc ..⟩

theorem intercalate_eq_joinWords (words : List (List Char)) :
    [' '].intercalate words = joinWords words (List.replicate (words.length - 1) 1) := by
  induction words with
  | nil => rfl
  | cons word rest ih =>
      cases rest with
      | nil => rw [List.intercalate_singleton]; rfl
      | cons next rest =>
          rw [List.intercalate_cons_cons, ih]
          rfl

theorem render_ne_nil {line : Line} (inhabited : line.words ≠ []) (shown : [] ∉ line.words) :
    line.render ≠ [] := by
  obtain ⟨word, rest, words⟩ := List.exists_cons_of_ne_nil inhabited
  obtain ⟨tail, joined⟩ := joinWords_cons word rest line.gaps
  have wordShown : word ≠ [] := by
    rintro rfl
    exact shown (words ▸ List.mem_cons_self)
  rw [render, words, joined]
  exact List.append_ne_nil_of_right_ne_nil _ (List.append_ne_nil_of_left_ne_nil wordShown _)

/-- A line with a gap between neighbouring words, of which there is at least one. -/
def WellSet (line : Line) : Prop :=
  line.gaps.length + 1 = line.words.length

theorem WellSet.words_ne_nil {line : Line} (wellSet : line.WellSet) : line.words ≠ [] := by
  intro empty
  rw [WellSet, empty] at wellSet
  exact Nat.succ_ne_zero _ wellSet

theorem wellSet_spread (indentation blanks : Nat) {words : List (List Char)}
    (inhabited : words ≠ []) : (spread indentation blanks words).WellSet := by
  have positive := List.length_pos_iff.mpr inhabited
  simp only [WellSet, spread, length_spreadGaps]
  omega

end Line

namespace Row

/-- The words of a row; a skipped line has none. -/
def words : Row → List (List Char)
  | .skip => []
  | .line composed => composed.words

/-- The line of a row; a skipped line has none. -/
def line? : Row → Option Line
  | .skip => none
  | .line composed => some composed

theorem solid_text (row : Row) : solid row.text = solid row.words.flatten := by
  cases row with
  | skip => rfl
  | line composed => simp [text, words, Line.render, Line.solid_joinWords]

theorem solid_texts (rows : List Row) :
    solid (rows.map text).flatten = solid (rows.flatMap words).flatten := by
  induction rows with
  | nil => rfl
  | cons row rows ih => simp [solid_text, ih]

end Row

/-- The lines of rows, without the skipped lines. -/
def composedLines (rows : List Row) : List Line :=
  rows.filterMap Row.line?

theorem composedLines_append (first second : List Row) :
    composedLines (first ++ second) = composedLines first ++ composedLines second :=
  List.filterMap_append

theorem mem_composedLines {rows : List Row} {line : Line} :
    line ∈ composedLines rows ↔ Row.line line ∈ rows := by
  refine List.mem_filterMap.trans ⟨?_, fun member => ⟨_, member, rfl⟩⟩
  rintro ⟨row, member, found⟩
  cases row with
  | skip => cases found
  | line other =>
      cases found
      exact member

theorem flatMap_words_composedLines (rows : List Row) :
    (composedLines rows).flatMap Line.words = rows.flatMap Row.words := by
  induction rows with
  | nil => rfl
  | cons row rest ih =>
      rw [← List.singleton_append, composedLines_append, List.flatMap_append, List.flatMap_append,
        ih]
      cases row <;> simp [composedLines, Row.line?, Row.words]

/-- If every line shows something, the texts of rows that are not empty are those of the lines. -/
theorem inhabited_texts {rows : List Row}
    (shown : ∀ line ∈ composedLines rows, line.render ≠ []) :
    (rows.map Row.text).filter (· ≠ []) = (composedLines rows).map Line.render := by
  induction rows with
  | nil => rfl
  | cons row rest ih =>
      cases row with
      | skip => exact ih shown
      | line line =>
          obtain ⟨first, later⟩ := List.forall_mem_cons.mp shown
          change (Row.line line).text ≠ [] at first
          rw [List.map_cons, List.filter_cons_of_pos (by simpa using first), ih later]
          rfl

namespace Composer

/-- The words that an action finishes when `word` is the word being built. -/
def Action.finishes (word : List Char) : Action → List (List Char)
  | .finishWord | .endParagraph => if word = [] then [] else [word]
  | .addWord added => [added]
  | .addText _ | .endLine | .change _ => []

/-- The word being built after an action when `word` was being built before it. -/
def Action.building (word : List Char) : Action → List Char
  | .addText text => word ++ text
  | .finishWord | .endParagraph => []
  | .addWord _ | .endLine | .change _ => word

/-- The words that actions finish. -/
def finishedWords : (word : List Char) → List Action → List (List Char)
  | _, [] => []
  | word, action :: rest => action.finishes word ++ finishedWords (action.building word) rest

/-- The word being built after actions. -/
def builtWord (word : List Char) (actions : List Action) : List Char :=
  actions.foldl Action.building word

theorem builtWord_cons (word : List Char) (action : Action) (rest : List Action) :
    builtWord word (action :: rest) = builtWord (action.building word) rest := rfl

/-- What one operation does with words: the rows it finishes and the line it leaves hold the words
of the line before it and then the words `added`, and the rows are well set. -/
structure Delivers (before : Composer) (added : List (List Char))
    (after : Composer × List Row) : Prop where
  words : after.2.flatMap Row.words ++ after.1.words = before.words ++ added
  wellSet : ∀ line, Row.line line ∈ after.2 → line.WellSet

namespace Delivers

/-- An operation that finishes no row and leaves the line alone. -/
theorem idle {before after : Composer} (same : after.words = before.words) :
    Delivers before [] (after, []) :=
  ⟨by simp [same], by simp⟩

/-- Two operations in a row. -/
theorem trans {before : Composer} {added more : List (List Char)} {mid after : Composer × List Row}
    (first : Delivers before added mid) (second : Delivers mid.1 more after) :
    Delivers before (added ++ more) (after.1, mid.2 ++ after.2) where
  words := by
    rw [List.flatMap_append, List.append_assoc, second.words, ← List.append_assoc, first.words,
      List.append_assoc]
  wellSet := by
    intro line member
    rcases List.mem_append.mp member with early | late
    · exact first.wellSet line early
    · exact second.wellSet line late

end Delivers

theorem flatMap_words_skips (composer : Composer) : composer.skips.flatMap Row.words = [] := by
  unfold skips
  split
  · simp [Row.words]
  · rfl

theorem not_mem_skips (composer : Composer) (line : Line) : Row.line line ∉ composer.skips := by
  unfold skips
  split <;> simp

theorem composedLines_skips (composer : Composer) : composedLines composer.skips = [] := by
  unfold skips composedLines
  split <;> simp [Row.line?]

/-- A filled line has a blank for each gap. -/
theorem le_filledBlanks (composer : Composer) :
    composer.words.length - 1 ≤ composer.filledBlanks := by
  unfold filledBlanks
  split
  · exact Nat.le_max_left _ _
  · exact Nat.le_refl _

/-- A filled line has at most `maxBlanksPerGap` blanks for each gap. -/
theorem filledBlanks_le (composer : Composer) :
    composer.filledBlanks ≤ maxBlanksPerGap * (composer.words.length - 1) := by
  have plain : composer.words.length - 1 ≤ maxBlanksPerGap * (composer.words.length - 1) :=
    Nat.le_mul_of_pos_left _ (Nat.succ_pos 2)
  unfold filledBlanks
  split
  · exact Nat.max_le.mpr ⟨plain, Nat.min_le_right _ _⟩
  · exact plain

theorem delivers_emit (composer : Composer) (blanks : Nat) (inhabited : composer.words ≠ []) :
    Delivers composer [] (composer.emit blanks) where
  words := by simp [emit, flatMap_words_skips, Row.words, Line.spread]
  wellSet := by
    intro line member
    rcases List.mem_append.mp member with skipped | last
    · exact absurd skipped (composer.not_mem_skips line)
    · cases List.mem_singleton.mp last
      exact Line.wellSet_spread _ _ inhabited

theorem delivers_emitPlain (composer : Composer) : Delivers composer [] composer.emitPlain := by
  unfold emitPlain
  split
  · exact .idle rfl
  · rename_i inhabited
    exact composer.delivers_emit _ inhabited

theorem delivers_push (composer : Composer) (word : List Char) :
    Delivers composer [word] (composer.push word, []) :=
  ⟨by simp [push], by simp⟩

theorem delivers_addWord (composer : Composer) (word : List Char) :
    Delivers composer [word] (composer.addWord word) := by
  unfold addWord
  split
  · exact composer.delivers_push word
  · split
    · split
      · exact (composer.delivers_push word).trans
          ((composer.push word).delivers_emit 0 (by simp [push]))
      · exact composer.delivers_push word
    · rename_i inhabited
      split
      · simpa using (composer.delivers_emit composer.filledBlanks inhabited).trans
          (delivers_push _ word)
      · exact composer.delivers_push word

theorem delivers_finishWord (composer : Composer) :
    Delivers composer (Action.finishWord.finishes composer.word) composer.finishWord := by
  by_cases empty : composer.word = []
  · simp only [finishWord, Action.finishes, empty, ↓reduceIte]
    exact .idle rfl
  · obtain ⟨words, wellSet⟩ := delivers_addWord { composer with word := [] } composer.word
    simp only [finishWord, Action.finishes, empty, ↓reduceIte]
    exact ⟨words, wellSet⟩

theorem delivers_endLine (composer : Composer) : Delivers composer [] composer.endLine := by
  unfold endLine
  split
  · exact .idle rfl
  · exact composer.delivers_emitPlain

theorem delivers_endParagraph (composer : Composer) :
    Delivers composer (Action.endParagraph.finishes composer.word) composer.endParagraph := by
  obtain ⟨words, wellSet⟩ :=
    composer.delivers_finishWord.trans composer.finishWord.1.delivers_emitPlain
  rw [List.append_nil] at words
  exact ⟨words, wellSet⟩

theorem delivers_step (composer : Composer) (action : Action) :
    Delivers composer (action.finishes composer.word) (composer.step action) := by
  cases action with
  | addText text => exact .idle rfl
  | finishWord => exact composer.delivers_finishWord
  | addWord word => exact composer.delivers_addWord word
  | endLine => exact composer.delivers_endLine
  | endParagraph => exact composer.delivers_endParagraph
  | change change => exact .idle rfl

@[simp] theorem word_emitPlain (composer : Composer) :
    composer.emitPlain.1.word = composer.word := by
  unfold emitPlain
  split <;> rfl

@[simp] theorem word_addWord (composer : Composer) (word : List Char) :
    (composer.addWord word).1.word = composer.word := by
  unfold addWord
  (repeat' split) <;> rfl

@[simp] theorem word_finishWord (composer : Composer) : composer.finishWord.1.word = [] := by
  unfold finishWord
  split
  · assumption
  · exact word_addWord _ _

theorem word_step (composer : Composer) (action : Action) :
    (composer.step action).1.word = action.building composer.word := by
  cases action with
  | addText text => rfl
  | finishWord => exact composer.word_finishWord
  | addWord word => exact composer.word_addWord word
  | endLine =>
      simp only [step, endLine, Action.building]
      split
      · rfl
      · exact composer.word_emitPlain
  | endParagraph => simp [step, endParagraph, Action.building]
  | change change => rfl

theorem word_run (composer : Composer) (actions : List Action) :
    (composer.run actions).1.word = builtWord composer.word actions := by
  induction actions generalizing composer with
  | nil => rfl
  | cons action rest ih => rw [run, ih, word_step, builtWord_cons]

/-- What actions do with words, one after the other. -/
theorem delivers_run (composer : Composer) (actions : List Action) :
    Delivers composer (finishedWords composer.word actions) (composer.run actions) := by
  induction actions generalizing composer with
  | nil => exact .idle rfl
  | cons action rest ih =>
      have later := ih (composer.step action).1
      rw [word_step] at later
      exact (composer.delivers_step action).trans later

theorem run_append (composer : Composer) (first second : List Action) :
    composer.run (first ++ second) =
      (((composer.run first).1.run second).1,
        (composer.run first).2 ++ ((composer.run first).1.run second).2) := by
  induction first generalizing composer with
  | nil => rfl
  | cons action rest ih => simp [run, ih]

/-- The characters that an action adds to the word being built. -/
def Action.text : Action → List Char
  | .addText text => text
  | .finishWord | .addWord _ | .endLine | .endParagraph | .change _ => []

/-- Without whole words, what actions finish and what they leave in the word being built spell what
they add. -/
theorem flatten_finishedWords {actions : List Action} (word : List Char)
    (gradual : ∀ whole, Action.addWord whole ∉ actions) :
    (finishedWords word actions).flatten ++ builtWord word actions =
      word ++ actions.flatMap Action.text := by
  induction actions generalizing word with
  | nil => simp [finishedWords, builtWord]
  | cons action rest ih =>
      have later := ih (action.building word) fun whole member =>
        gradual whole (List.mem_cons_of_mem _ member)
      have step : (action.finishes word).flatten ++ action.building word = word ++ action.text := by
        cases action with
        | addWord whole => exact absurd List.mem_cons_self (gradual whole)
        | addText text => rfl
        | endLine | change => simp [Action.finishes, Action.building, Action.text]
        | finishWord | endParagraph =>
            by_cases empty : word = [] <;>
              simp [Action.finishes, Action.building, Action.text, empty]
      rw [finishedWords, List.flatten_append, List.append_assoc, builtWord_cons, later,
        ← List.append_assoc, step, List.flatMap_cons, List.append_assoc]

/-- No word that actions finish is empty, unless they add an empty one. -/
theorem nil_not_mem_finishedWords {word : List Char} {actions : List Action}
    (inhabited : Action.addWord [] ∉ actions) : [] ∉ finishedWords word actions := by
  induction actions generalizing word with
  | nil => exact List.not_mem_nil
  | cons action rest ih =>
      intro member
      rcases List.mem_append.mp member with first | later
      · cases action with
        | addWord whole =>
            cases List.mem_singleton.mp first
            exact inhabited List.mem_cons_self
        | finishWord | endParagraph =>
            by_cases empty : word = []
            · simp [Action.finishes, empty] at first
            · rw [Action.finishes, if_neg empty] at first
              exact empty (List.mem_singleton.mp first).symm
        | _ => simp [Action.finishes] at first
      · exact ih (fun among => inhabited (List.mem_cons_of_mem _ among)) later

/-- If no word is empty, every line shows something. -/
theorem render_ne_nil_of_run (composer : Composer) {actions : List Action}
    (waiting : [] ∉ composer.words) (inhabited : Action.addWord [] ∉ actions) :
    ∀ line ∈ composedLines (composer.run actions).2, line.render ≠ [] := by
  have delivers := composer.delivers_run actions
  intro line member
  have row := mem_composedLines.mp member
  refine Line.render_ne_nil (delivers.wellSet line row).words_ne_nil fun empty => ?_
  have among : [] ∈ composer.words ++ finishedWords composer.word actions := by
    rw [← delivers.words]
    exact List.mem_append_left _ (List.mem_flatMap.mpr ⟨_, row, empty⟩)
  exact (List.mem_append.mp among).elim waiting (nil_not_mem_finishedWords inhabited)

/-- **Text through a composer.** Without whole words, the rows of a run and the characters that are
still in hand after it show what was in hand before it and the text that was added. -/
theorem solid_run (composer : Composer) {actions : List Action}
    (gradual : ∀ whole, Action.addWord whole ∉ actions) :
    solid ((composer.run actions).2.map Row.text).flatten ++
        solid ((composer.run actions).1.words.flatten ++ (composer.run actions).1.word) =
      solid (composer.words.flatten ++ composer.word) ++ solid (actions.flatMap Action.text) := by
  have words := congrArg (fun words => solid words.flatten) (composer.delivers_run actions).words
  have spelled := congrArg solid (flatten_finishedWords composer.word gradual)
  simp only [List.flatten_append, solid_append] at words spelled
  rw [Row.solid_texts, word_run, solid_append, ← List.append_assoc, words, List.append_assoc,
    spelled, solid_append, List.append_assoc]

/-- A composer that holds no characters. -/
def Idle (composer : Composer) : Prop :=
  composer.words = [] ∧ composer.word = []

theorem idle_endParagraph (composer : Composer) : composer.endParagraph.1.Idle := by
  refine ⟨?_, by simp [endParagraph]⟩
  simp only [endParagraph, emitPlain]
  split
  · assumption
  · rfl

theorem idle_run (composer : Composer) (actions : List Action) :
    (composer.run (actions ++ [.endParagraph])).1.Idle := by
  rw [run_append]
  exact idle_endParagraph _

/-- Between two moments at which a composer holds nothing, its rows show the text that was
added. -/
theorem solid_run_of_idle {composer : Composer} {actions : List Action} (idle : composer.Idle)
    (gradual : ∀ whole, Action.addWord whole ∉ actions) (after : (composer.run actions).1.Idle) :
    solid ((composer.run actions).2.map Row.text).flatten =
      solid (actions.flatMap Action.text) := by
  have shown := composer.solid_run gradual
  rwa [after.1, after.2, idle.1, idle.2, List.flatten_nil, List.append_nil, solid_nil,
    List.append_nil, List.nil_append] at shown

/-- A word in hand is the start of the first word that is finished. -/
theorem finishedWords_of_building {word : List Char} {actions : List Action} (started : word ≠ [])
    (gradual : ∀ whole, Action.addWord whole ∉ actions) :
    ∃ more later, finishedWords word (actions ++ [.endParagraph]) = (word ++ more) :: later := by
  induction actions generalizing word with
  | nil => exact ⟨[], [], by simp [finishedWords, Action.finishes, started]⟩
  | cons action rest ih =>
      have gradualRest : ∀ whole, Action.addWord whole ∉ rest := fun whole member =>
        gradual whole (List.mem_cons_of_mem _ member)
      rw [List.cons_append, finishedWords]
      cases action with
      | addWord whole => exact absurd List.mem_cons_self (gradual whole)
      | addText text =>
          obtain ⟨more, later, same⟩ :=
            ih (List.append_ne_nil_of_left_ne_nil started text) gradualRest
          exact ⟨text ++ more, later, by rw [← List.append_assoc]; exact same⟩
      | endLine | change =>
          obtain ⟨more, later, same⟩ := ih started gradualRest
          exact ⟨more, later, same⟩
      | finishWord | endParagraph =>
          exact ⟨[], _, by simp only [Action.finishes, started, ↓reduceIte, List.append_nil]; rfl⟩

end Composer

/-- If rows have words, the first rows are skipped lines and then comes the line with the first of
the words. -/
theorem Row.exists_first_line {rows : List Row} {word : List Char} {rest : List (List Char)}
    (wellSet : ∀ line, Row.line line ∈ rows → line.WellSet)
    (words : rows.flatMap Row.words = word :: rest) :
    ∃ (count : Nat) (line : Line) (later : List (List Char)) (after : List Row),
      rows = List.replicate count .skip ++ .line line :: after ∧ line.words = word :: later := by
  induction rows with
  | nil => simp at words
  | cons row rows ih =>
      cases row with
      | skip =>
          obtain ⟨count, line, later, after, same, starts⟩ :=
            ih (fun line member => wellSet line (List.mem_cons_of_mem _ member)) words
          exact ⟨count + 1, line, later, after, by rw [same]; rfl, starts⟩
      | line line =>
          have set := wellSet line List.mem_cons_self
          rw [List.flatMap_cons] at words
          cases spelled : line.words with
          | nil =>
              rw [Line.WellSet, spelled] at set
              exact absurd set (Nat.succ_ne_zero _)
          | cons first later =>
              rw [Row.words, spelled, List.cons_append, List.cons.injEq] at words
              exact ⟨0, line, later, rows, rfl, by rw [spelled, words.1]⟩

end Galley
