import Mathlib.Order.WellFounded
import Galley.Proofs.JoinedTexts
import Galley.Proofs.PrintedLines
import Galley.Proofs.StretchedLines

/-! # Paragraphs are set separately

Plain text that is filled is set paragraph by paragraph: no line of a paragraph depends on the other
paragraphs, and empty lines stand between paragraphs and nowhere else. Main statement:
`Galley.format_pieces`.
-/

namespace Galley

open Composer (Action between paragraph paragraphActions)

/-! ## Pieces of a source -/

/-- The characters that blanks and line breaks consist of. -/
def isWhite (char : Char) : Bool :=
  isBlank char || char = '\r' || char = '\n'

/-- The words of a text: its longest runs of characters that are not white. -/
def wordsOf (text : List Char) : List (List Char) :=
  (text.splitOnP isWhite).filter (· ≠ [])

/-- Two line breaks in a row stand in a text, with `before` before them. -/
def BreaksBehind (before text : List Char) : Prop :=
  ∃ (first second : LineEnd) (after : List Char),
    text = before ++ (first.spelling ++ (second.spelling ++ after))

/-- No two line breaks in a row stand in a text. -/
def Unbroken (text : List Char) : Prop :=
  ∀ before, ¬BreaksBehind before text

/-- The pieces of a source that is cut at each run of two or more line breaks. A run is as long as
it can be: no character of a line break stands before it, and no line break behind it. -/
inductive CutAtBreaks : (source : List Char) → (pieces : List (List Char)) → Prop
  | last {piece : List Char} (unbroken : Unbroken piece) : CutAtBreaks piece [piece]
  | cons {piece rest : List Char} {pieces : List (List Char)} (first second : LineEnd)
      (more : List LineEnd) (unbroken : Unbroken piece)
      (before : ∀ char ∈ piece.getLast?, char ≠ '\r' ∧ char ≠ '\n')
      (behind : ¬StartsWithLineEnd rest) (later : CutAtBreaks rest pieces) :
      CutAtBreaks (piece ++ ((first :: second :: more).flatMap LineEnd.spelling ++ rest))
        (piece :: pieces)

theorem unbroken_of_no_feed {text : List Char} (none : '\n' ∉ text) : Unbroken text := by
  rintro before ⟨first, second, after, rfl⟩
  cases first <;> simp [LineEnd.spelling] at none

/-- In front of the first two line breaks in a row stands no character of a line break. -/
theorem getLast?_of_least {before text : List Char} (plain : PlainSource text)
    (breaks : BreaksBehind before text)
    (least : ∀ other, BreaksBehind other text → before.length ≤ other.length) :
    ∀ char ∈ before.getLast?, char ≠ '\r' ∧ char ≠ '\n' := by
  intro char last
  obtain ⟨init, rfl⟩ := List.getLast?_eq_some_iff.mp last
  obtain ⟨first, second, after, rfl⟩ := breaks
  have shorter : ¬BreaksBehind init
      (init ++ [char] ++ (first.spelling ++ (second.spelling ++ after))) := by
    intro breaks
    have bound := least init breaks
    rw [List.length_append, List.length_singleton] at bound
    omega
  constructor
  · rintro rfl
    have feed := plain.paired init.length (by simp)
    cases first with
    | lf => exact shorter ⟨.crlf, second, after, by simp [LineEnd.spelling]⟩
    | crlf => simp [LineEnd.spelling] at feed
  · rintro rfl
    exact shorter ⟨.lf, first, second.spelling ++ after, by simp [LineEnd.spelling]⟩

theorem LineEnd.length_spelling_pos (lineEnd : LineEnd) : 0 < lineEnd.spelling.length := by
  cases lineEnd <;> exact Nat.succ_pos _

theorem exists_least_break {text : List Char} (broken : ¬Unbroken text) :
    ∃ before, BreaksBehind before text ∧
      ∀ other, BreaksBehind other text → before.length ≤ other.length := by
  simp only [Unbroken, not_forall, not_not] at broken
  obtain ⟨before, breaks, least⟩ :=
    (measure List.length).wf.has_min {before | BreaksBehind before text} broken
  exact ⟨before, breaks, fun other breaks => Nat.not_lt.mp (least other breaks)⟩

theorem PlainSource.head {first rest : List Char} (plain : PlainSource (first ++ rest))
    (paired : ∀ char ∈ first.getLast?, char ≠ '\r') : PlainSource first where
  unmarked := fun char member => plain.unmarked char (List.mem_append_left _ member)
  paired := by
    intro index lone
    obtain ⟨inside, same⟩ := List.getElem?_eq_some_iff.mp lone
    by_cases final : index + 1 = first.length
    · have last : first.getLast? = some '\r' := by
        rw [List.getLast?_eq_getElem?, ← final, Nat.add_sub_cancel, lone]
      exact absurd rfl (paired '\r' last)
    · have feed := plain.paired index (by rw [List.getElem?_append_left inside, lone])
      rwa [List.getElem?_append_left (by omega)] at feed

/-- Every plain text has its pieces. -/
theorem exists_cutAtBreaks {source : List Char} (plain : PlainSource source) :
    ∃ pieces, CutAtBreaks source pieces := by
  induction size : source.length using Nat.strongRecOn generalizing source with
  | ind count ih =>
      by_cases unbroken : Unbroken source
      · exact ⟨[source], .last unbroken⟩
      · obtain ⟨piece, breaks, least⟩ := exists_least_break unbroken
        have before := getLast?_of_least plain breaks least
        obtain ⟨first, second, after, rfl⟩ := breaks
        -- A break inside the piece would stand before the first break of the text.
        have whole : Unbroken piece := by
          rintro other ⟨inner, next, later, rfl⟩
          have bound := least other ⟨inner, next, later ++ (first.spelling ++
            (second.spelling ++ after)), by simp only [List.append_assoc]⟩
          have positive := inner.length_spelling_pos
          simp only [List.length_append] at bound
          omega
        have run : first.spelling ++ (second.spelling ++ after) =
            (first :: second :: (splitLineEnds after).1).flatMap LineEnd.spelling ++
              (splitLineEnds after).2 := by
          simp only [List.flatMap_cons, List.append_assoc, splitLineEnds_append]
        rw [run] at plain size ⊢
        have shorter : (splitLineEnds after).2.length < count := by
          have positive := first.length_spelling_pos
          simp only [List.flatMap_cons, List.length_append] at size
          omega
        obtain ⟨pieces, later⟩ := ih _ shorter plain.tail.tail rfl
        exact ⟨piece :: pieces,
          .cons first second _ whole before (not_startsWithLineEnd_splitLineEnds after) later⟩

/-! ## Lexemes of the pieces -/

theorem getLast?_lineEnds (first : LineEnd) (more : List LineEnd) :
    ((first :: more).flatMap LineEnd.spelling).getLast? = some '\n' := by
  induction more generalizing first with
  | nil => cases first <;> rfl
  | cons next more ih =>
      rw [List.flatMap_cons, List.getLast?_append, ih, Option.some_or]

theorem stopsRun_lineEnds {continues : Char → Bool} (feed : continues '\n' = false)
    (lone : continues '\r' = false) (first : LineEnd) (rest : List Char) :
    StopsRun continues (first.spelling ++ rest) := by
  intro char found
  cases first <;> cases Option.some.inj found <;> assumption

/-- A line break ends the last lexeme of plain text before it, unless that text ends with a
character of a line break. -/
theorem lexemes_before_lineEnd {piece : List Char} (plain : PlainSource piece)
    (before : ∀ char ∈ piece.getLast?, char ≠ '\r' ∧ char ≠ '\n') (lineEnd : LineEnd)
    (rest : List Char) :
    lexemes (piece ++ (lineEnd.spelling ++ rest)) =
      lexemes piece ++ lexemes (lineEnd.spelling ++ rest) := by
  apply lexemes_joined
  intro last found
  obtain ⟨cut, ends⟩ := last_lexeme found
  have unmarked := plain.unmarked_lexemes last (List.mem_of_getLast? found)
  cases cut with
  | blank inhabited blanks =>
      exact .blank inhabited blanks (stopsRun_lineEnds rfl rfl lineEnd rest)
  | text inhabited ordinary =>
      exact .text inhabited ordinary (stopsRun_lineEnds rfl rfl lineEnd rest)
  | lineBreak other =>
      have feed := getLast?_lineEnds other []
      rw [List.flatMap_singleton] at feed
      exact absurd rfl (before _ (ends.trans feed)).2
  | paragraphBreak other next later =>
      have feed := getLast?_lineEnds other (next :: later)
      rw [← Lexeme.spelling_paragraphBreak] at feed
      exact absurd rfl (before _ (ends.trans feed)).2
  | _ => cases unmarked

/-- A piece and the run of line breaks behind it are cut into the lexemes of the piece and a break
between paragraphs. -/
theorem lexemes_piece {piece rest : List Char} {first second : LineEnd} {more : List LineEnd}
    (plain : PlainSource piece) (before : ∀ char ∈ piece.getLast?, char ≠ '\r' ∧ char ≠ '\n')
    (behind : ¬StartsWithLineEnd rest) :
    lexemes (piece ++ ((first :: second :: more).flatMap LineEnd.spelling ++ rest)) =
      lexemes piece ++ .paragraphBreak first second more :: lexemes rest := by
  have breaks := lexemes_append (.paragraphBreak first second more behind)
  rw [Lexeme.spelling_paragraphBreak, List.flatMap_cons, List.append_assoc] at breaks
  rw [List.flatMap_cons, List.append_assoc, lexemes_before_lineEnd plain before, breaks]

/-! ## Words of the pieces -/

/-- **Words end at white characters.** -/
theorem wordsOf_append_cons {char : Char} (white : isWhite char = true) (first rest : List Char) :
    wordsOf (first ++ char :: rest) = wordsOf first ++ wordsOf rest := by
  rw [wordsOf, List.splitOnP_append_cons first rest white, List.filter_append]
  rfl

theorem wordsOf_nil : wordsOf [] = [] := by
  simp [wordsOf, List.splitOnP_nil]

theorem wordsOf_cons_white {char : Char} (white : isWhite char = true) (rest : List Char) :
    wordsOf (char :: rest) = wordsOf rest := by
  have split := wordsOf_append_cons white [] rest
  rwa [wordsOf_nil, List.nil_append, List.nil_append] at split

theorem wordsOf_white {run : List Char} (white : ∀ char ∈ run, isWhite char) (rest : List Char) :
    wordsOf (run ++ rest) = wordsOf rest := by
  induction run with
  | nil => rfl
  | cons char run ih =>
      obtain ⟨first, later⟩ := List.forall_mem_cons.mp white
      rw [List.cons_append, wordsOf_cons_white first, ih later]

theorem wordsOf_word {run rest : List Char} (inhabited : run ≠ [])
    (solid : ∀ char ∈ run, isWhite char = false)
    (stops : StopsRun (fun char => !isWhite char) rest) :
    wordsOf (run ++ rest) = run :: wordsOf rest := by
  have alone : wordsOf run = [run] := by
    rw [wordsOf, List.splitOnP_eq_singleton solid]
    simp [inhabited]
  cases rest with
  | nil => rw [List.append_nil, alone, wordsOf_nil]
  | cons char rest =>
      have white : isWhite char = true := by simpa using stops char rfl
      rw [wordsOf_append_cons white, wordsOf_cons_white white, alone, List.singleton_append]

theorem isWhite_of_ordinary {char : Char} (ordinary : isSpecial char = false) :
    isWhite char = false := by
  simp_all [isSpecial, isWhite]

theorem LineEnd.isWhite_spelling (lineEnd : LineEnd) : ∀ char ∈ lineEnd.spelling, isWhite char := by
  cases lineEnd <;> simp [LineEnd.spelling, isWhite]

theorem LineEnd.isWhite_of_mem {ends : List LineEnd} {char : Char}
    (member : char ∈ ends.flatMap LineEnd.spelling) : isWhite char := by
  obtain ⟨lineEnd, -, spelled⟩ := List.mem_flatMap.mp member
  exact lineEnd.isWhite_spelling char spelled

/-- The words that a lexeme without markup spells. -/
def Lexeme.words : Lexeme → List (List Char)
  | .text run => [run]
  | _ => []

theorem Cut.wordsOf_eq {units : List Lexeme} (cut : Cut units)
    (plain : PlainSource (units.flatMap Lexeme.spelling)) :
    wordsOf (units.flatMap Lexeme.spelling) = units.flatMap Lexeme.words := by
  induction cut with
  | nil => exact wordsOf_nil
  | @cons unit rest first later ih =>
      rw [List.flatMap_cons] at plain ⊢
      rw [List.flatMap_cons, ← ih plain.tail]
      have unmarked := first.unmarked plain
      cases unmarked with
      | blank run =>
          cases first with
          | blank _ blanks =>
              exact wordsOf_white (fun char among => by simp [isWhite, blanks char among]) _
      | lineBreak lineEnd =>
          exact wordsOf_white lineEnd.isWhite_spelling _
      | paragraphBreak first second more =>
          refine wordsOf_white (fun char among => ?_) _
          rw [Lexeme.spelling_paragraphBreak] at among
          exact LineEnd.isWhite_of_mem among
      | text isWord =>
          have stops : StopsRun (fun char => !isSpecial char) (rest.flatMap Lexeme.spelling) := by
            cases first with
            | text _ _ stops => exact stops
          refine wordsOf_word isWord.1
            (fun char among => isWhite_of_ordinary (isWord.2 char among)) fun char found => ?_
          have special := stops char found
          obtain ⟨backslash, opening, closing⟩ :=
            plain.tail.unmarked char (List.mem_of_head? found)
          simpa [isSpecial, isWhite, backslash, opening, closing] using special

/-- The words of plain text are its runs of text. -/
theorem wordsOf_eq {text : List Char} (plain : PlainSource text) :
    wordsOf text = (lexemes text).flatMap Lexeme.words := by
  have spelled := flatMap_spelling_lexemes text
  have words := (cut_lexemes text).wordsOf_eq (by rwa [spelled])
  rwa [spelled] at words

theorem isWord_of_mem_wordsOf {text : List Char} (plain : PlainSource text) :
    ∀ word ∈ wordsOf text, IsWord word := by
  intro word member
  rw [wordsOf_eq plain] at member
  obtain ⟨unit, among, spelled⟩ := List.mem_flatMap.mp member
  cases plain.unmarked_lexemes unit among with
  | text isWord =>
      rw [List.mem_singleton.mp spelled]
      exact isWord
  | _ => simp [Lexeme.words] at spelled

/-! ## Outlines of the pieces -/

theorem consInhabited_append {α : Type} (item : List α) (first second : List (List α)) :
    consInhabited item (first ++ second) = consInhabited item first ++ second := by
  unfold consInhabited
  split <;> rfl

theorem flatten_consInhabited {α : Type} (item : List α) (items : List (List α)) :
    (consInhabited item items).flatten = item ++ items.flatten := by
  unfold consInhabited
  split
  · rename_i empty
    rw [empty, List.nil_append]
  · exact List.flatten_cons

theorem nil_not_mem_consInhabited {α : Type} {items : List (List α)} (inhabited : [] ∉ items)
    (item : List α) : [] ∉ consInhabited item items := by
  intro empty
  rcases mem_consInhabited empty with ⟨same, filled⟩ | later
  · exact filled same.symm
  · exact inhabited later

theorem flatten_ne_nil {α : Type} {items : List (List α)} (filled : items ≠ [])
    (inhabited : [] ∉ items) : items.flatten ≠ [] := by
  obtain ⟨first, more, rfl⟩ := List.exists_cons_of_ne_nil filled
  refine List.flatten_ne_nil_iff.mpr ⟨first, List.mem_cons_self, ?_⟩
  rintro rfl
  exact inhabited List.mem_cons_self

/-- Behind a break between paragraphs the outline starts anew. -/
theorem outline_append_break (units : List Lexeme) (first second : LineEnd) (more : List LineEnd)
    (rest : List Lexeme) :
    outline (units ++ .paragraphBreak first second more :: rest) =
      outline units ++ outline rest := by
  have opened : outlineFrom (units ++ .paragraphBreak first second more :: rest) =
      { outlineFrom units with
        paragraphs := (outlineFrom units).paragraphs ++ outline rest } := by
    induction units with
    | nil => rfl
    | cons unit units ih =>
        rw [List.cons_append]
        cases unit <;> simp only [outlineFrom, ih, OpenOutline.close, consInhabited_append]
  rw [outline, opened, OpenOutline.close, consInhabited_append]
  rfl

/-- Without breaks between paragraphs, the outline is one paragraph, or none if there are no
words. -/
theorem outline_of_unbroken {units : List Lexeme}
    (unbroken : ∀ first second more, Lexeme.paragraphBreak first second more ∉ units) :
    (outline units).map List.flatten = consInhabited (units.flatMap Lexeme.words) [] := by
  have parts : (outlineFrom units).paragraphs = [] ∧ [] ∉ (outlineFrom units).lines ∧
      (outlineFrom units).line ++ (outlineFrom units).lines.flatten =
        units.flatMap Lexeme.words := by
    induction units with
    | nil => simp [outlineFrom]
    | cons unit units ih =>
        obtain ⟨paragraphs, lines, words⟩ := ih fun first second more among =>
          unbroken first second more (List.mem_cons_of_mem _ among)
        rw [List.flatMap_cons, ← words]
        cases unit with
        | paragraphBreak first second more => exact absurd List.mem_cons_self (unbroken _ _ _)
        | text run => exact ⟨paragraphs, lines, rfl⟩
        | lineBreak lineEnd =>
            exact ⟨paragraphs, nil_not_mem_consInhabited lines _, flatten_consInhabited _ _⟩
        | _ => exact ⟨paragraphs, lines, rfl⟩
  obtain ⟨paragraphs, lines, words⟩ := parts
  have flat := flatten_consInhabited (outlineFrom units).line (outlineFrom units).lines
  rw [words] at flat
  rw [outline, OpenOutline.close, paragraphs, ← flat]
  by_cases empty : consInhabited (outlineFrom units).line (outlineFrom units).lines = []
  · rw [empty]
    rfl
  · have inhabited := flatten_ne_nil empty (nil_not_mem_consInhabited lines _)
    rw [consInhabited_of_ne_nil empty, consInhabited_of_ne_nil inhabited]
    rfl

/-- The paragraphs of a source are its pieces, without those that have no words. -/
theorem CutAtBreaks.outline_eq {source : List Char} {pieces : List (List Char)}
    (cut : CutAtBreaks source pieces) (plain : PlainSource source) :
    (outline (lexemes source)).map List.flatten = (pieces.map wordsOf).filter (· ≠ []) := by
  have piece {text : List Char} (plain : PlainSource text) (unbroken : Unbroken text) :
      (outline (lexemes text)).map List.flatten = [wordsOf text].filter (· ≠ []) := by
    rw [outline_of_unbroken, ← wordsOf_eq plain]
    · by_cases empty : wordsOf text = [] <;> simp [consInhabited, empty]
    · intro first second more among
      obtain ⟨init, rest, split⟩ := List.append_of_mem among
      refine unbroken (init.flatMap Lexeme.spelling) ⟨first, second,
        more.flatMap LineEnd.spelling ++ rest.flatMap Lexeme.spelling, ?_⟩
      rw [← flatMap_spelling_lexemes text, split]
      simp [Lexeme.spelling]
  induction cut with
  | last unbroken => exact piece plain unbroken
  | cons first second more unbroken before behind later ih =>
      have plainPiece := plain.head fun char last => (before char last).1
      rw [lexemes_piece plainPiece before behind, outline_append_break, List.map_append,
        piece plainPiece unbroken, ih plain.tail.tail, ← List.filter_append]
      rfl

theorem CutAtBreaks.isWord_of_mem {source : List Char} {pieces : List (List Char)}
    (cut : CutAtBreaks source pieces) (plain : PlainSource source) :
    ∀ piece ∈ pieces, ∀ word ∈ wordsOf piece, IsWord word := by
  induction cut with
  | last unbroken =>
      rw [List.forall_mem_singleton]
      exact isWord_of_mem_wordsOf plain
  | cons first second more unbroken before behind later ih =>
      have plainPiece := plain.head fun char last => (before char last).1
      exact List.forall_mem_cons.mpr ⟨isWord_of_mem_wordsOf plainPiece, ih plain.tail.tail⟩

/-! ## Rows of a paragraph -/

namespace Composer

/-- A composer at the start of a paragraph that has finished a line before. -/
def resumed (composer : Composer) : Composer :=
  { composer with untouched := false }

/-- Empty rows between two paragraphs. -/
def gapRows (settings : Settings) : List Row :=
  List.replicate settings.parSkip .skip

theorem emit_resumed {composer : Composer} (fresh : composer.untouched = true)
    (opens : composer.opensParagraph = true) (blanks : Nat) :
    composer.resumed.emit blanks =
      ((composer.emit blanks).1, gapRows composer.settings ++ (composer.emit blanks).2) := by
  obtain ⟨settings, word, words, opensParagraph, untouched⟩ := composer
  cases fresh
  cases opens
  rfl

/-- Adding the first words of a paragraph either finishes no line yet, or it does so behind the gap
if there is one. -/
theorem addWord_resumed {composer : Composer} (fresh : composer.untouched = true)
    (opens : composer.opensParagraph = true) (word : List Char) :
    (composer.addWord word = (composer.push word, []) ∧
      composer.resumed.addWord word = ((composer.push word).resumed, [])) ∨
    composer.resumed.addWord word = ((composer.addWord word).1,
      gapRows composer.settings ++ (composer.addWord word).2) := by
  obtain ⟨settings, held, words, opensParagraph, untouched⟩ := composer
  cases fresh
  cases opens
  by_cases fill : settings.fill
  · simp only [addWord, resumed, solidWidth, indentation, fill, not_true_eq_false, ↓reduceIte]
    by_cases empty : words = []
    · subst empty
      by_cases wide : settings.textWidth <
          settings.effectiveIndentation true + ([] : List (List Char)).flatten.length + word.length
      · simp only [wide, ↓reduceIte]
        exact Or.inr (@emit_resumed ⟨settings, held, [word], true, true⟩ rfl rfl 0)
      · simp only [wide, ↓reduceIte]
        exact Or.inl ⟨trivial, rfl⟩
    · by_cases overfull : settings.textWidth <
          settings.effectiveIndentation true + words.flatten.length + word.length + words.length
      · simp only [empty, overfull, ↓reduceIte]
        exact Or.inr rfl
      · simp only [empty, overfull, ↓reduceIte]
        exact Or.inl ⟨trivial, rfl⟩
  · simp only [addWord, resumed, fill, Bool.false_eq_true, not_false_eq_true, ↓reduceIte]
    exact Or.inl ⟨trivial, rfl⟩

/-- **The gap before a paragraph** stands before its first line, and nothing else depends on what
was set before. -/
theorem run_resumed {composer : Composer} (fresh : composer.untouched = true)
    (opens : composer.opensParagraph = true) (whole : composer.word = [])
    {words : List (List Char)} (inhabited : composer.words ++ words ≠ []) :
    composer.resumed.run (paragraph words) =
      ((composer.run (paragraph words)).1,
        gapRows composer.settings ++ (composer.run (paragraph words)).2) := by
  induction words generalizing composer with
  | nil =>
      have held : composer.words ≠ [] := by simpa using inhabited
      have emitted := emit_resumed fresh opens (composer.words.length - 1)
      have wholeResumed : composer.resumed.word = [] := whole
      have ended : composer.emitPlain = composer.emit (composer.words.length - 1) := if_neg held
      have endedResumed :
          composer.resumed.emitPlain = composer.resumed.emit (composer.words.length - 1) :=
        if_neg held
      simp only [paragraph, List.map_nil, List.nil_append, run, step, List.append_nil]
      rw [endParagraph_of_whole whole, endParagraph_of_whole wholeResumed, ended, endedResumed,
        emitted]
  | cons word rest ih =>
      rw [paragraph_cons, run, run, step, step]
      rcases addWord_resumed fresh opens word with ⟨kept, keptResumed⟩ | flushed
      · have later := @ih (composer.push word) fresh opens whole (by simp [push])
        rw [kept, keptResumed, later]
        rfl
      · rw [flushed, List.append_assoc]

/-- While filling, a paragraph is set in the same lines wherever it stands. -/
theorem exists_separate_lines {settings : Settings} (fill : settings.fill = true)
    {words : List (List Char)} (inhabited : words ≠ []) :
    ∃ lines : List Line, (lines.map Line.words).flatten = words ∧ [] ∉ lines.map Line.words ∧
      ∀ untouched, (between settings untouched).run (paragraph words) =
        (between settings false, (between settings untouched).skips ++ lines.map .line) := by
  obtain ⟨lines, rows, greedy⟩ :=
    (between settings true).greedyLines_run words fill rfl (Or.inl (Nat.zero_le _))
  have flatten : (lines.map Line.words).flatten = words := greedy.cut.flatten
  have filled : lines ≠ [] := by
    rintro rfl
    exact inhabited flatten.symm
  rw [paragraphRows, if_neg filled] at rows
  have first : (between settings true).run (paragraph words) =
      (between settings false, lines.map .line) := by
    refine Prod.ext ?_ rows
    rw [paragraph, run_endParagraph_eq _ (by simp), ← paragraph, rows]
    simp [between, skips, filled]
  refine ⟨lines, flatten, greedy.cut.inhabited, fun untouched => ?_⟩
  cases untouched with
  | true => exact first
  | false =>
      have later := @run_resumed (between settings true) rfl rfl rfl words inhabited
      rw [first] at later
      exact later

/-- The lines of a text that consists of one paragraph of words. -/
def paragraphTexts (settings : Settings) (words : List (List Char)) : List (List Char) :=
  ((between settings true).run (paragraph words)).2.map Row.text

theorem nil_not_mem_paragraphTexts {settings : Settings} (fill : settings.fill = true)
    {words : List (List Char)} (inhabited : words ≠ []) (shown : [] ∉ words) :
    [] ∉ paragraphTexts settings words := by
  obtain ⟨lines, flatten, filled, set⟩ := exists_separate_lines fill inhabited
  rw [paragraphTexts, set true]
  intro empty
  obtain ⟨row, among, text⟩ := List.mem_map.mp empty
  obtain ⟨line, member, rfl⟩ := List.mem_map.mp among
  have held := List.mem_map_of_mem (f := Line.words) member
  refine Line.render_ne_nil (fun none => filled (none ▸ held)) (fun blank => shown ?_) text
  rw [← flatten]
  exact List.mem_flatten.mpr ⟨line.words, held, blank⟩

/-- Each paragraph of an outline is set as a text of its own, behind a gap. -/
theorem texts_outline {settings : Settings} (fill : settings.fill = true)
    {outline : List (List (List (List Char)))} (inhabited : ∀ lines ∈ outline, lines.flatten ≠ []) :
    ((between settings false).run (outline.flatMap paragraphActions)).2.map Row.text =
      (outline.map List.flatten).flatMap fun words =>
        List.replicate settings.parSkip [] ++ paragraphTexts settings words := by
  induction outline with
  | nil => rfl
  | cons lines outline ih =>
      obtain ⟨first, later⟩ := List.forall_mem_cons.mp inhabited
      obtain ⟨set, -, -, same⟩ := exists_separate_lines fill first
      have alone : paragraphTexts settings lines.flatten = set.map Line.render := by
        rw [paragraphTexts, same true]
        exact List.map_map
      have gap : (between settings false).skips = gapRows settings := rfl
      rw [List.flatMap_cons, run_append, run_paragraphActions_of_fill fill, same false,
        List.map_append, ih later, List.map_cons, List.flatMap_cons, alone, gap]
      simp [gapRows, Row.text]

end Composer

open Composer (paragraphTexts)

/-- **Filled text is set paragraph by paragraph**, with gaps between the paragraphs. -/
theorem texts_plainRows {settings : Settings} (fill : settings.fill = true) {units : List Lexeme}
    (unmarked : ∀ unit ∈ units, unit.Unmarked) :
    (plainRows settings units).map Row.text = (List.replicate settings.parSkip []).intercalate
      (((outline units).map List.flatten).map (paragraphTexts settings)) := by
  have inhabited : ∀ lines ∈ outline units, lines.flatten ≠ [] := by
    intro lines among
    obtain ⟨filled, words⟩ := inhabited_outline unmarked lines among
    obtain ⟨line, more, rfl⟩ := List.exists_cons_of_ne_nil filled
    rw [List.flatten_cons]
    exact List.append_ne_nil_of_left_ne_nil (words line List.mem_cons_self).1 _
  have rows : plainRows settings units =
      ((between settings true).run ((outline units).flatMap paragraphActions)).2 :=
    congrArg Prod.snd (Composer.run_outline unmarked settings true)
  rw [rows]
  cases paragraphs : outline units with
  | nil => rfl
  | cons lines rest =>
      rw [paragraphs] at inhabited
      obtain ⟨first, later⟩ := List.forall_mem_cons.mp inhabited
      obtain ⟨set, -, -, same⟩ := Composer.exists_separate_lines fill first
      rw [List.flatMap_cons, Composer.run_append, Composer.run_paragraphActions_of_fill fill,
        List.map_append, List.map_cons, List.map_cons, intercalate_cons, List.flatMap_map,
        ← Composer.texts_outline fill later, same true]
      rw [paragraphTexts, same true]

/-! ## Formatting -/

/-- Words that are joined by single blanks are formatted as one paragraph. -/
theorem format_words {presets : Presets} (valid : presets.Valid)
    (fill : presets.main.fill = true) (unbounded : presets.main.textHeight = none)
    {words : List (List Char)} (inhabited : words ≠ []) (isWords : ∀ word ∈ words, IsWord word) :
    (format presets ([' '].intercalate words)).outcome =
      .ok (paragraphTexts presets.main words) := by
  have ordinary : ∀ char ∈ [' '].intercalate words, char = ' ' ∨ isSpecial char = false := by
    intro char member
    rcases mem_intercalate member with blank | ⟨word, among, inside⟩
    · exact Or.inl blank
    · exact Or.inr ((isWords word among).2 char inside)
  have plain : PlainSource ([' '].intercalate words) := by
    refine .of_no_returns (fun char member => ?_) fun lone => ?_
    · rcases ordinary char member with rfl | plain
      · decide
      · refine ⟨?_, ?_, ?_⟩ <;> rintro rfl <;> exact absurd plain (by decide)
    · rcases ordinary _ lone with blank | plain
      · exact absurd blank (by decide)
      · exact absurd plain (by decide)
  have read : outline (lexemes ([' '].intercalate words)) = [[words]] := by
    have counted := List.length_pos_iff.mpr inhabited
    have joined := @outlineFrom_joinWords [] words (List.replicate (words.length - 1) 1)
      (by rw [List.length_replicate]; omega)
      (fun gap among => by rw [List.eq_of_mem_replicate among]; exact Nat.one_pos) isWords
      (by simp [StopsRun])
    rw [List.append_nil, lexemes_nil] at joined
    rw [Line.intercalate_eq_joinWords, outline, joined]
    simp [OpenOutline.close, outlineFrom, consInhabited, inhabited]
  rw [plain.outcome_format valid unbounded, texts_plainRows fill plain.unmarked_lexemes, read]
  simp

/-- **Paragraphs are formatted separately.** Plain text, filled on pages without bound, has pieces
at its runs of two or more line breaks. Whatever the pieces are, the lines of the text are those
that the words of each piece are formatted in as a text of their own, with the gap between
paragraphs between them; pieces without words do not count. There are no other empty lines. -/
theorem format_pieces {presets : Presets} (valid : presets.Valid)
    (fill : presets.main.fill = true) (unbounded : presets.main.textHeight = none)
    {source : List Char} (plain : PlainSource source) :
    (∃ pieces, CutAtBreaks source pieces) ∧ ∀ pieces, CutAtBreaks source pieces →
      ∃ documents : List (List (List Char)),
        List.Forall₂
          (fun piece lines =>
            (format presets ([' '].intercalate (wordsOf piece))).outcome = .ok lines ∧ [] ∉ lines)
          (pieces.filter (wordsOf · ≠ [])) documents ∧
        (format presets source).outcome =
          .ok ((List.replicate presets.main.parSkip []).intercalate documents) := by
  refine ⟨exists_cutAtBreaks plain, fun pieces cut => ?_⟩
  have words : ∀ piece ∈ pieces, ∀ word ∈ wordsOf piece, IsWord word := cut.isWord_of_mem plain
  refine ⟨(pieces.filter (wordsOf · ≠ [])).map fun piece =>
    paragraphTexts presets.main (wordsOf piece), ?_, ?_⟩
  · rw [List.forall₂_map_right_iff, List.forall₂_same]
    intro piece member
    obtain ⟨among, inhabited⟩ := List.mem_filter.mp member
    have filled : wordsOf piece ≠ [] := by simpa using inhabited
    exact ⟨format_words valid fill unbounded filled (words piece among),
      Composer.nil_not_mem_paragraphTexts fill filled fun blank =>
        (words piece among [] blank).1 rfl⟩
  · rw [plain.outcome_format valid unbounded, texts_plainRows fill plain.unmarked_lexemes,
      cut.outline_eq plain, List.filter_map, List.map_map]
    rfl

/-- Between two paragraphs stand two runs of line breaks with a piece without words between them. -/
theorem format_pieces_of_blank_piece :
    let source := "to  be\r\n\r\n \n\nor".toList
    CutAtBreaks source ["to  be".toList, [' '], "or".toList] ∧
      ∃ documents : List (List (List Char)),
        List.Forall₂
          (fun piece lines =>
            (format .default ([' '].intercalate (wordsOf piece))).outcome = .ok lines ∧ [] ∉ lines)
          ["to  be".toList, "or".toList] documents ∧
        (format .default source).outcome = .ok ([[]].intercalate documents) := by
  intro source
  have final : CutAtBreaks "or".toList ["or".toList] := .last (unbroken_of_no_feed (by simp))
  have behind : CutAtBreaks " \n\nor".toList [[' '], "or".toList] :=
    @CutAtBreaks.cons [' '] "or".toList _ .lf .lf [] (unbroken_of_no_feed (by simp)) (by simp)
      (not_startsWithLineEnd_of_head (by simp)) final
  have cut : CutAtBreaks source ["to  be".toList, [' '], "or".toList] :=
    @CutAtBreaks.cons "to  be".toList " \n\nor".toList _ .crlf .crlf []
      (unbroken_of_no_feed (by simp)) (by simp) (not_startsWithLineEnd_of_head (by simp))
      behind
  have valid : Presets.default.Valid := Presets.invalid?_eq_none_iff.mp rfl
  have plain : PlainSource source := by decide +kernel
  have worded : ["to  be".toList, [' '], "or".toList].filter (wordsOf · ≠ []) =
      ["to  be".toList, "or".toList] := by
    decide +kernel
  obtain ⟨documents, formatted, whole⟩ := (format_pieces valid rfl rfl plain).2 _ cut
  rw [worded] at formatted
  exact ⟨cut, documents, formatted, whole⟩

end Galley
