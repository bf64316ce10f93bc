import Galley.Proofs.SeparateParagraphs
import Galley.Proofs.SpreadBlanks

/-! # Input lines are kept

Plain text that is not filled is set line by line: the words of an input line stand on one line of
their own, with single blanks between them. How such a line is indented, and whether empty lines
stand before it, depends on the text before it alone, as does the composer that meets it
(`Galley.AtLineStart`). Main statement: `Galley.format_input_lines`.
-/

namespace Galley

open Composer (Action lineActions)

/-! ## Input lines -/

/-- A text without characters of line breaks. -/
def IsLine (line : List Char) : Prop :=
  ∀ char ∈ line, char ≠ '\r' ∧ char ≠ '\n'

/-- The input lines of a text behind another, each with all that stands before it. The text is cut
at its line breaks. -/
inductive CutAtLineEnds : (before text : List Char) → (inputs : List (List Char × List Char)) → Prop
  | last {before line : List Char} (isLine : IsLine line) :
      CutAtLineEnds before line [(before, line)]
  | cons {before line rest : List Char} {inputs : List (List Char × List Char)}
      (lineEnd : LineEnd) (isLine : IsLine line)
      (later : CutAtLineEnds (before ++ (line ++ lineEnd.spelling)) rest inputs) :
      CutAtLineEnds before (line ++ (lineEnd.spelling ++ rest)) ((before, line) :: inputs)

/-- Two line breaks follow each other directly in a text, and no words behind them. -/
def EndsBroken (text : List Char) : Prop :=
  ∃ (front : List Char) (first second : LineEnd) (after : List Char),
    text = front ++ (first.spelling ++ (second.spelling ++ after)) ∧ wordsOf after = []

/-- The output line of an input line: an indentation, and the words with single blanks between
them. -/
def keptLine (indentation : Nat) (words : List (List Char)) : List Char :=
  List.replicate indentation ' ' ++ [' '].intercalate words

/-- What an input line is set as, which stands behind a text. The first line with words opens a
paragraph, and so does each behind which the text before it is broken; lines without words are set
as nothing. -/
inductive SetAs (settings : Settings) :
    (input : List Char × List Char) → (output : List (List Char)) → Prop
  | wordless {before line : List Char} (wordless : wordsOf line = []) :
      SetAs settings (before, line) []
  | first {before line : List Char} (worded : wordsOf line ≠ []) (start : wordsOf before = []) :
      SetAs settings (before, line)
        [keptLine (settings.indentation + settings.parIndentation).toNat (wordsOf line)]
  | opening {before line : List Char} (worded : wordsOf line ≠ []) (later : wordsOf before ≠ [])
      (broken : EndsBroken before) :
      SetAs settings (before, line) (List.replicate settings.parSkip [] ++
        [keptLine (settings.indentation + settings.parIndentation).toNat (wordsOf line)])
  | continued {before line : List Char} (worded : wordsOf line ≠ []) (later : wordsOf before ≠ [])
      (unbroken : ¬EndsBroken before) :
      SetAs settings (before, line) [keptLine settings.indentation (wordsOf line)]

theorem CutAtLineEnds.cons_char {char : Char} (other : char ≠ '\r' ∧ char ≠ '\n')
    {before text : List Char} {inputs : List (List Char × List Char)}
    (cut : CutAtLineEnds (before ++ [char]) text inputs) :
    ∃ longer, CutAtLineEnds before (char :: text) longer := by
  cases cut with
  | last isLine => exact ⟨_, .last (List.forall_mem_cons.mpr ⟨other, isLine⟩)⟩
  | @cons _ line rest inputs lineEnd isLine later =>
      rw [List.append_assoc, List.singleton_append, ← List.cons_append] at later
      exact ⟨_, .cons lineEnd (List.forall_mem_cons.mpr ⟨other, isLine⟩) later⟩

/-- A character of a line break starts one in plain text. -/
theorem PlainSource.startsWithLineEnd {char : Char} {rest : List Char}
    (plain : PlainSource (char :: rest)) (among : char = '\r' ∨ char = '\n') :
    StartsWithLineEnd (char :: rest) := by
  rcases among with rfl | rfl
  · have feed : rest[0]? = some '\n' := plain.paired 0 rfl
    rw [← List.head?_eq_getElem?] at feed
    obtain ⟨later, rfl⟩ := List.head?_eq_some_iff.mp feed
    exact ⟨.crlf, later, rfl⟩
  · exact ⟨.lf, rest, rfl⟩

/-- Every plain text has its input lines. -/
theorem exists_cutAtLineEnds {text : List Char} (plain : PlainSource text) (before : List Char) :
    ∃ inputs, CutAtLineEnds before text inputs := by
  have nothing : IsLine [] := by simp [IsLine]
  induction size : text.length using Nat.strongRecOn generalizing text before with
  | ind count ih =>
      cases text with
      | nil => exact ⟨_, .last nothing⟩
      | cons char rest =>
          by_cases starts : StartsWithLineEnd (char :: rest)
          · obtain ⟨lineEnd, later, same⟩ := starts
            have positive := lineEnd.length_spelling_pos
            rw [same] at plain size ⊢
            rw [List.length_append] at size
            obtain ⟨inputs, cut⟩ :=
              ih _ (by omega) plain.tail (before ++ ([] ++ lineEnd.spelling)) rfl
            exact ⟨_, .cons lineEnd nothing cut⟩
          · have other : char ≠ '\r' ∧ char ≠ '\n' :=
              not_or.mp fun among => starts (plain.startsWithLineEnd among)
            rw [List.length_cons] at size
            rw [← List.singleton_append] at plain
            obtain ⟨inputs, cut⟩ := ih _ (by omega) plain.tail (before ++ [char]) rfl
            exact cut.cons_char other

/-! ## White text -/

theorem wordsOf_eq_nil_iff {text : List Char} :
    wordsOf text = [] ↔ ∀ char ∈ text, isWhite char := by
  constructor
  · intro wordless
    induction text with
    | nil => simp
    | cons char rest ih =>
        cases white : isWhite char with
        | true =>
            rw [wordsOf_cons_white white] at wordless
            exact List.forall_mem_cons.mpr ⟨white, ih wordless⟩
        | false =>
            -- The text starts with a word, up to the first white character.
            have solid : ∀ other ∈ (char :: rest).takeWhile (!isWhite ·), isWhite other = false :=
              fun other member => by simpa using List.all_eq_true.mp List.all_takeWhile other member
            have inhabited : (char :: rest).takeWhile (!isWhite ·) ≠ [] := by
              rw [List.takeWhile_cons_of_pos (by simp [white])]
              exact List.cons_ne_nil _ _
            have words := wordsOf_word inhabited solid
              (stopsRun_dropWhile (fun char => !isWhite char) (char :: rest))
            rw [List.takeWhile_append_dropWhile, wordless] at words
            simp at words
  · intro white
    rw [← List.append_nil text, wordsOf_white white, wordsOf_nil]

theorem wordsOf_append_eq_nil_iff {first second : List Char} :
    wordsOf (first ++ second) = [] ↔ wordsOf first = [] ∧ wordsOf second = [] := by
  simp only [wordsOf_eq_nil_iff, List.forall_mem_append]

theorem wordsOf_lineEnd (lineEnd : LineEnd) : wordsOf lineEnd.spelling = [] :=
  wordsOf_eq_nil_iff.mpr lineEnd.isWhite_spelling

theorem wordsOf_input_eq_nil_iff (before line : List Char) (lineEnd : LineEnd) :
    wordsOf (before ++ (line ++ lineEnd.spelling)) = [] ↔
      wordsOf before = [] ∧ wordsOf line = [] := by
  rw [wordsOf_append_eq_nil_iff, wordsOf_append_eq_nil_iff]
  simp only [wordsOf_lineEnd, and_true]

/-! ## Line breaks in a row -/

/-- Of the first of two line breaks only the line feed counts. -/
theorem endsBroken_iff {text : List Char} :
    EndsBroken text ↔ ∃ (front : List Char) (second : LineEnd) (after : List Char),
      text = front ++ '\n' :: (second.spelling ++ after) ∧ wordsOf after = [] := by
  constructor
  · rintro ⟨front, first, second, after, rfl, white⟩
    cases first with
    | lf => exact ⟨front, second, after, rfl, white⟩
    | crlf => exact ⟨front ++ ['\r'], second, after, by simp [LineEnd.spelling], white⟩
  · rintro ⟨front, second, after, rfl, white⟩
    exact ⟨front, .lf, second, after, rfl, white⟩

theorem EndsBroken.append {before more : List Char} (broken : EndsBroken before)
    (wordless : wordsOf more = []) : EndsBroken (before ++ more) := by
  obtain ⟨front, first, second, after, rfl, white⟩ := broken
  refine ⟨front, first, second, after ++ more, ?_, wordsOf_append_eq_nil_iff.mpr ⟨white, wordless⟩⟩
  simp only [List.append_assoc]

theorem LineEnd.append_injective {first second : LineEnd} {rest other : List Char}
    (same : first.spelling ++ rest = second.spelling ++ other) : first = second ∧ rest = other := by
  cases first <;> cases second <;> simp_all [LineEnd.spelling]

theorem IsLine.not_startsWithLineEnd {line : List Char} (isLine : IsLine line)
    (inhabited : line ≠ []) (rest : List Char) : ¬StartsWithLineEnd (line ++ rest) := by
  obtain ⟨first, line, rfl⟩ := List.exists_cons_of_ne_nil inhabited
  refine not_startsWithLineEnd_of_head fun char found => ?_
  cases Option.some.inj found
  exact (isLine first List.mem_cons_self).symm

/-- A text whose first line has words does not start with a line break. -/
theorem IsLine.leads {line : List Char} (isLine : IsLine line) (worded : wordsOf line ≠ [])
    (rest : List Char) : ¬StartsWithLineEnd (line ++ rest) := by
  apply isLine.not_startsWithLineEnd
  rintro rfl
  exact worded wordsOf_nil

/-- A line break does not follow the one before it directly, if a line with any characters stands
between them. -/
theorem EndsBroken.of_append {before line : List Char} {lineEnd : LineEnd} (isLine : IsLine line)
    (inhabited : line ≠ []) (broken : EndsBroken (before ++ (line ++ lineEnd.spelling))) :
    EndsBroken before ∧ wordsOf line = [] := by
  obtain ⟨front, second, after, same, white⟩ := endsBroken_iff.mp broken
  have feeds (lineEnd : LineEnd) : lineEnd.spelling.count '\n' = 1 := by
    cases lineEnd <;> rfl
  rcases List.append_eq_append_iff.mp same with ⟨inside, rfl, tail⟩ | ⟨inside, rfl, tail⟩
  · -- Only one line feed stands behind the text before the line.
    have counted := congrArg (List.count '\n') tail
    have none : line.count '\n' = 0 :=
      List.count_eq_zero.mpr fun member => (isLine _ member).2 rfl
    simp only [List.count_append, List.count_cons_self, none, feeds] at counted
    omega
  · cases inside with
    | nil =>
        obtain ⟨first, line, rfl⟩ := List.exists_cons_of_ne_nil inhabited
        exact absurd (List.cons.inj tail).1.symm (isLine first List.mem_cons_self).2
    | cons feed inside =>
        have behind : second.spelling ++ after = inside ++ (line ++ lineEnd.spelling) :=
          (List.cons.inj tail).2
        cases (List.cons.inj tail).1
        -- The second line break was there before the line.
        have starts : StartsWithLineEnd inside := by
          by_contra stops
          refine not_startsWithLineEnd_append stops
            (fun _ => isLine.not_startsWithLineEnd inhabited lineEnd.spelling) (fun _ found => ?_)
            ⟨second, after, behind.symm⟩
          obtain ⟨first, line, rfl⟩ := List.exists_cons_of_ne_nil inhabited
          exact (isLine first List.mem_cons_self).2 (Option.some.inj found)
        obtain ⟨other, later, rfl⟩ := starts
        rw [List.append_assoc] at behind
        obtain ⟨rfl, rfl⟩ := LineEnd.append_injective behind
        obtain ⟨whiteLater, whiteLine⟩ := wordsOf_append_eq_nil_iff.mp white
        exact ⟨endsBroken_iff.mpr ⟨front, second, later, rfl, whiteLater⟩,
          (wordsOf_append_eq_nil_iff.mp whiteLine).1⟩

/-! ## Actions of a line -/

/-- What composing plain text does. -/
def plainActions (text : List Char) : List Action :=
  (lexemes text).flatMap Lexeme.wordActions ++ [.endParagraph]

theorem wordActions_of_isLine {line : List Char} (isLine : IsLine line) (plain : PlainSource line) :
    (lexemes line).flatMap Lexeme.wordActions = (wordsOf line).map .addWord := by
  rw [wordsOf_eq plain, List.map_flatMap]
  refine List.flatMap_congr fun unit member => ?_
  have unbroken : '\n' ∉ unit.spelling := by
    intro feed
    have inside : '\n' ∈ (lexemes line).flatMap Lexeme.spelling :=
      List.mem_flatMap.mpr ⟨unit, member, feed⟩
    rw [flatMap_spelling_lexemes] at inside
    exact (isLine _ inside).2 rfl
  cases unit with
  | lineBreak lineEnd => cases lineEnd <;> simp [Lexeme.spelling, LineEnd.spelling] at unbroken
  | paragraphBreak first second more =>
      cases first <;> simp [Lexeme.spelling, LineEnd.spelling] at unbroken
  | _ => rfl

theorem IsLine.getLast? {line : List Char} (isLine : IsLine line) :
    ∀ char ∈ line.getLast?, char ≠ '\r' ∧ char ≠ '\n' :=
  fun char last => isLine char (List.mem_of_getLast? last)

section Actions

variable {line rest : List Char} (isLine : IsLine line) (plain : PlainSource line)

include isLine plain

theorem plainActions_of_isLine :
    plainActions line = (wordsOf line).map .addWord ++ [.endParagraph] := by
  rw [plainActions, wordActions_of_isLine isLine plain]

/-- A line break on its own ends the line before it. -/
theorem plainActions_of_lone (lineEnd : LineEnd) (lone : ¬StartsWithLineEnd rest) :
    plainActions (line ++ (lineEnd.spelling ++ rest)) =
      lineActions (wordsOf line) ++ plainActions rest := by
  have ended : lexemes (lineEnd.spelling ++ rest) = .lineBreak lineEnd :: lexemes rest :=
    lexemes_append (.lineBreak lineEnd lone)
  rw [plainActions, lexemes_before_lineEnd plain isLine.getLast?, ended, List.flatMap_append,
    wordActions_of_isLine isLine plain]
  simp [Lexeme.wordActions, lineActions, plainActions]

/-- Where another line break follows directly, the paragraph ends before the rest is read. -/
theorem run_plainActions_of_double (lineEnd : LineEnd) (double : StartsWithLineEnd rest)
    (composer : Composer) :
    composer.run (plainActions (line ++ (lineEnd.spelling ++ rest))) =
      composer.run ((wordsOf line).map .addWord ++ .endParagraph :: plainActions rest) := by
  obtain ⟨second, tail, rfl⟩ := double
  have behind := not_startsWithLineEnd_splitLineEnds tail
  have whole := splitLineEnds_append tail
  generalize (splitLineEnds tail).1 = more, (splitLineEnds tail).2 = text at behind whole
  subst whole
  have ended := lexemes_append (.paragraphBreak lineEnd second more behind)
  rw [Lexeme.spelling, List.append_assoc, List.append_assoc] at ended
  have actions : plainActions (line ++ (lineEnd.spelling ++ (second.spelling ++
      (more.flatMap LineEnd.spelling ++ text)))) =
        (wordsOf line).map .addWord ++ .endParagraph :: plainActions text := by
    rw [plainActions, lexemes_before_lineEnd plain isLine.getLast?, ended, List.flatMap_append,
      wordActions_of_isLine isLine plain]
    simp [Lexeme.wordActions, plainActions]
  rw [actions]
  refine Composer.run_append_congr ?_
  generalize (composer.run ((wordsOf line).map .addWord)).1 = reached
  -- What is left of the run of line breaks does nothing behind the end of a paragraph.
  cases more with
  | nil =>
      have next : plainActions (second.spelling ++ text) = .endLine :: plainActions text := by
        rw [plainActions, ← Lexeme.spelling, lexemes_append (.lineBreak second behind)]
        rfl
      rw [List.flatMap_nil, List.nil_append, next]
      exact (reached.run_endParagraph_endLine _).symm
  | cons third more =>
      have next : plainActions (second.spelling ++ ((third :: more).flatMap LineEnd.spelling ++
          text)) = .endParagraph :: plainActions text := by
        rw [plainActions, ← List.append_assoc, ← List.flatMap_cons,
          ← Lexeme.spelling_paragraphBreak,
          lexemes_append (.paragraphBreak second third more behind)]
        rfl
      rw [next]
      exact (reached.run_endParagraph_endParagraph _).symm

end Actions

/-! ## Lines as they are met -/

theorem spreadGaps_of_plain (count : Nat) :
    spreadGaps (count - 1) count = List.replicate (count - 1) 1 := by
  refine List.eq_replicate_iff.mpr ⟨length_spreadGaps _ _, fun gap member => ?_⟩
  exact Nat.le_antisymm (gap_le (by omega) member) (le_gap (by omega) member)

/-- A line with one blank for each gap has its words joined by single blanks. -/
theorem render_spread_plain (indentation : Nat) (words : List (List Char)) :
    (Line.spread indentation (words.length - 1) words).render = keptLine indentation words := by
  rw [Line.render, Line.spread, spreadGaps_of_plain, keptLine, Line.intercalate_eq_joinWords]

/-- A composer that meets a text behind another, at the start of an input line. What it holds
depends on the text before alone; a paragraph has ended already if another line break follows. -/
structure AtLineStart (settings : Settings) (before text : List Char) (composer : Composer) :
    Prop where
  inForce : composer.settings = settings
  idle : composer.Idle
  ended : before = [] ∨ ∃ front, before = front ++ ['\n']
  untouched : composer.untouched = true ↔ wordsOf before = []
  opens : composer.opensParagraph = true ↔
    wordsOf before = [] ∨ EndsBroken before ∨ StartsWithLineEnd text

theorem atLineStart_new (settings : Settings) (text : List Char) :
    AtLineStart settings [] text (.new settings) where
  inForce := rfl
  idle := ⟨rfl, rfl⟩
  ended := Or.inl rfl
  untouched := by simp [Composer.new, wordsOf_nil]
  opens := by simp [Composer.new, wordsOf_nil]

namespace AtLineStart

variable {settings : Settings} {before text line : List Char} {composer : Composer}

theorem run_wordless (state : AtLineStart settings before text composer)
    (wordless : wordsOf line = []) :
    composer.run (lineActions (wordsOf line)) = (composer, []) := by
  rw [wordless]
  exact congrArg (fun ended => (ended.1, ended.2 ++ [])) (Composer.endLine_of_nil state.idle.1)

theorem run_worded (state : AtLineStart settings before text composer)
    (unfilled : settings.fill = false) (worded : wordsOf line ≠ []) :
    composer.run (lineActions (wordsOf line)) =
      ({ composer with opensParagraph := false, untouched := false },
        composer.skips ++ [.line
          (.spread composer.indentation ((wordsOf line).length - 1) (wordsOf line))]) :=
  Composer.run_lineActions_of_not_fill (state.inForce ▸ unfilled) state.idle.1 worded

/-- **An input line is set as it stands**, with the indentation that the text before it asks for. -/
theorem setAs (state : AtLineStart settings before text composer)
    (unfilled : settings.fill = false) (leads : wordsOf line ≠ [] → ¬StartsWithLineEnd text) :
    SetAs settings (before, line) ((composer.run (lineActions (wordsOf line))).2.map Row.text) := by
  by_cases wordless : wordsOf line = []
  · rw [state.run_wordless wordless]
    exact .wordless wordless
  · have opens := state.opens
    have untouched := state.untouched
    rw [state.run_worded unfilled wordless, List.map_append, List.map_singleton, Row.text,
      render_spread_plain, Composer.indentation, Composer.skips, state.inForce]
    simp only [leads wordless, or_false] at opens
    by_cases start : wordsOf before = []
    · rw [opens.mpr (Or.inl start), untouched.mpr start]
      exact .first wordless start
    · have touched : composer.untouched = false := Bool.eq_false_iff.mpr (mt untouched.mp start)
      by_cases broken : EndsBroken before
      · rw [opens.mpr (Or.inr broken), touched, if_pos (by simp), List.map_replicate]
        exact .opening wordless start broken
      · have continues : composer.opensParagraph = false :=
          Bool.eq_false_iff.mpr (mt opens.mp (not_or.mpr ⟨start, broken⟩))
        rw [continues, touched, if_neg (by simp)]
        exact .continued wordless start broken

/-- What a composer holds behind the words of an input line and the end of that line. -/
theorem after_line (state : AtLineStart settings before text composer)
    (unfilled : settings.fill = false) (lineEnd : LineEnd) {after : Composer}
    (ran : (composer.run (lineActions (wordsOf line))).1 = after) :
    after.settings = settings ∧ after.Idle ∧
      (after.untouched = true ↔ wordsOf (before ++ (line ++ lineEnd.spelling)) = []) ∧
      (after.opensParagraph = true ↔ wordsOf line = [] ∧ composer.opensParagraph = true) := by
  have white := wordsOf_input_eq_nil_iff before line lineEnd
  by_cases wordless : wordsOf line = []
  · rw [state.run_wordless wordless] at ran
    subst ran
    simp only [white, wordless, and_true, true_and]
    exact ⟨state.inForce, state.idle, state.untouched⟩
  · rw [state.run_worded unfilled wordless] at ran
    subst ran
    simp only [white, wordless, and_false, false_and, Bool.false_eq_true]
    exact ⟨state.inForce, state.idle, trivial, trivial⟩

theorem ended_append (before line : List Char) (lineEnd : LineEnd) :
    ∃ front, before ++ (line ++ lineEnd.spelling) = front ++ ['\n'] := by
  cases lineEnd with
  | lf => exact ⟨before ++ line, by simp [LineEnd.spelling]⟩
  | crlf => exact ⟨before ++ (line ++ ['\r']), by simp [LineEnd.spelling]⟩

section Next

variable {rest : List Char} {lineEnd : LineEnd}

/-- Behind a line break on its own the composer is at the start of the next line. -/
theorem next_of_lone
    (state : AtLineStart settings before (line ++ (lineEnd.spelling ++ rest)) composer)
    (unfilled : settings.fill = false) (isLine : IsLine line) (lone : ¬StartsWithLineEnd rest) :
    AtLineStart settings (before ++ (line ++ lineEnd.spelling)) rest
      (composer.run (lineActions (wordsOf line))).1 := by
  obtain ⟨inForce, idle, untouched, opens⟩ := state.after_line unfilled lineEnd rfl
  refine ⟨inForce, idle, Or.inr (ended_append before line lineEnd), untouched, opens.trans ?_⟩
  rw [state.opens, wordsOf_input_eq_nil_iff]
  constructor
  · rintro ⟨wordless, nothing | broken | starts⟩
    · exact Or.inl ⟨nothing, wordless⟩
    · refine Or.inr (Or.inl (broken.append ?_))
      exact wordsOf_append_eq_nil_iff.mpr ⟨wordless, wordsOf_lineEnd lineEnd⟩
    · -- An empty line: the line break behind it follows the one before it directly.
      have empty : line = [] := by
        by_contra inhabited
        exact isLine.not_startsWithLineEnd inhabited _ starts
      subst empty
      rcases state.ended with rfl | ⟨front, rfl⟩
      · exact Or.inl ⟨wordsOf_nil, wordsOf_nil⟩
      · exact Or.inr (Or.inl (endsBroken_iff.mpr
          ⟨front, lineEnd, [], by simp, wordsOf_nil⟩))
  · rintro (⟨nothing, wordless⟩ | broken | double)
    · exact ⟨wordless, Or.inl nothing⟩
    · by_cases empty : line = []
      · subst empty
        exact ⟨wordsOf_nil, Or.inr (Or.inr ⟨lineEnd, rest, rfl⟩)⟩
      · obtain ⟨brokenBefore, wordless⟩ := broken.of_append isLine empty
        exact ⟨wordless, Or.inr (Or.inl brokenBefore)⟩
    · exact absurd double lone

/-- Where another line break follows directly, it is there once the paragraph has ended. -/
theorem next_of_double
    (state : AtLineStart settings before (line ++ (lineEnd.spelling ++ rest)) composer)
    (unfilled : settings.fill = false) (double : StartsWithLineEnd rest) :
    AtLineStart settings (before ++ (line ++ lineEnd.spelling)) rest
      { (composer.run (lineActions (wordsOf line))).1 with opensParagraph := true } := by
  obtain ⟨inForce, idle, untouched, -⟩ := state.after_line unfilled lineEnd rfl
  exact ⟨inForce, idle, Or.inr (ended_append before line lineEnd), untouched, by simp [double]⟩

end Next

end AtLineStart

/-! ## All lines -/

theorem Composer.run_words_endParagraph {composer : Composer} (whole : composer.word = [])
    (words : List (List Char)) (rest : List Action) :
    composer.run (words.map .addWord ++ .endParagraph :: rest) =
      composer.run (lineActions words ++ .endParagraph :: rest) := by
  rw [lineActions, List.append_assoc]
  refine run_append_congr (run_endLine_endParagraph rest ?_).symm
  rw [word_run, whole]
  exact builtWord_of_whole fun text member => by simp at member

theorem Composer.run_endParagraph_of_idle {composer : Composer} (idle : composer.Idle)
    (rest : List Action) :
    composer.run (.endParagraph :: rest) = { composer with opensParagraph := true }.run rest := by
  rw [run, step, endParagraph_of_whole idle.2, emitPlain_of_nil idle.1]
  rfl

/-- The input lines of a text are set one after the other. -/
theorem exists_outputs {settings : Settings} (unfilled : settings.fill = false)
    {before text : List Char} {inputs : List (List Char × List Char)}
    (cut : CutAtLineEnds before text inputs) (plain : PlainSource text) {composer : Composer}
    (state : AtLineStart settings before text composer) :
    ∃ outputs, List.Forall₂ (SetAs settings) inputs outputs ∧
      (composer.run (plainActions text)).2.map Row.text = outputs.flatten := by
  induction cut generalizing composer with
  | @last before line isLine =>
      have set := state.setAs unfilled fun worded => by
        have leads := isLine.leads worded []
        rwa [List.append_nil] at leads
      refine ⟨_, .cons set .nil, ?_⟩
      rw [plainActions_of_isLine isLine plain,
        Composer.run_words_endParagraph state.idle.2, Composer.run_append]
      obtain ⟨-, idle, -⟩ := state.after_line unfilled .lf rfl
      rw [Composer.run_endParagraph_of_idle idle]
      simp [Composer.run]
  | @cons before line rest inputs lineEnd isLine later ih =>
      have plainLine : PlainSource line := plain.head fun char last => (isLine.getLast? char last).1
      have set := state.setAs unfilled fun worded => isLine.leads worded _
      by_cases double : StartsWithLineEnd rest
      · obtain ⟨outputs, laterSet, texts⟩ :=
          ih plain.tail.tail (state.next_of_double unfilled double)
        refine ⟨_ :: outputs, .cons set laterSet, ?_⟩
        rw [run_plainActions_of_double isLine plainLine lineEnd double,
          Composer.run_words_endParagraph state.idle.2, Composer.run_append, List.map_append,
          List.flatten_cons, ← texts]
        obtain ⟨-, idle, -⟩ := state.after_line unfilled .lf rfl
        rw [Composer.run_endParagraph_of_idle idle]
      · obtain ⟨outputs, laterSet, texts⟩ :=
          ih plain.tail.tail (state.next_of_lone unfilled isLine double)
        refine ⟨_ :: outputs, .cons set laterSet, ?_⟩
        rw [plainActions_of_lone isLine plainLine lineEnd double, Composer.run_append,
          List.map_append, List.flatten_cons, ← texts]

/-! ## Formatting -/

/-- No line of words is empty. -/
theorem keptLine_ne_nil {line : List Char} (worded : wordsOf line ≠ []) (indentation : Nat) :
    keptLine indentation (wordsOf line) ≠ [] := by
  have inhabited : [] ∉ wordsOf line := by simp [wordsOf]
  obtain ⟨word, words, same⟩ := List.exists_cons_of_ne_nil worded
  rw [keptLine, same, intercalate_cons]
  refine List.append_ne_nil_of_right_ne_nil _ (List.append_ne_nil_of_left_ne_nil ?_ _)
  rintro rfl
  exact inhabited (same ▸ List.mem_cons_self)

/-- **Input lines are kept without filling.** Plain text on pages without bound is cut into its
input lines. Whatever these are, they are set one after the other, each line with words as one line
with these words, and lines without words as nothing. Empty lines stand only where a paragraph opens
behind another. -/
theorem format_input_lines {presets : Presets} (valid : presets.Valid)
    (unfilled : presets.main.fill = false) (unbounded : presets.main.textHeight = none)
    {source : List Char} (plain : PlainSource source) :
    (∃ inputs, CutAtLineEnds [] source inputs) ∧ ∀ inputs, CutAtLineEnds [] source inputs →
      ∃ outputs, List.Forall₂ (SetAs presets.main) inputs outputs ∧
        (format presets source).outcome = .ok outputs.flatten ∧
        ∀ input ∈ inputs, wordsOf input.2 ≠ [] → ∀ indentation,
          keptLine indentation (wordsOf input.2) ≠ [] := by
  refine ⟨exists_cutAtLineEnds plain [], fun inputs cut => ?_⟩
  obtain ⟨outputs, set, texts⟩ :=
    exists_outputs unfilled cut plain (atLineStart_new presets.main source)
  refine ⟨outputs, set, ?_, ?_⟩
  · rw [plain.outcome_format valid unbounded, ← texts]
    rfl
  · exact fun input _ worded indentation => keptLine_ne_nil worded indentation

/-- A line that is wider than the text, a line behind two line breaks in a row, and a line behind
one with nothing but a blank. -/
theorem format_input_lines_of_gaps :
    let presets : Presets :=
      { Presets.default with main := { Settings.main with textWidth := 2, fill := false } }
    let source := "to  be\r\n\nor\n \nnot".toList
    let inputs := [([], "to  be".toList), ("to  be\r\n".toList, []),
      ("to  be\r\n\n".toList, "or".toList), ("to  be\r\n\nor\n".toList, [' ']),
      ("to  be\r\n\nor\n \n".toList, "not".toList)]
    CutAtLineEnds [] source inputs ∧
      ∃ outputs, List.Forall₂ (SetAs presets.main) inputs outputs ∧
        (format presets source).outcome = .ok outputs.flatten ∧
        outputs.flatten = ["   to be".toList, [], "   or".toList, "not".toList] := by
  intro presets source inputs
  have isLine {line : List Char} (solid : line.all fun char => char ≠ '\r' && char ≠ '\n') :
      IsLine line := fun char member => by simpa using List.all_eq_true.mp solid char member
  have third : CutAtLineEnds "to  be\r\n\nor\n".toList " \nnot".toList
      [("to  be\r\n\nor\n".toList, [' ']), ("to  be\r\n\nor\n \n".toList, "not".toList)] :=
    @CutAtLineEnds.cons _ [' '] "not".toList _ .lf (isLine rfl) (.last (isLine rfl))
  have second : CutAtLineEnds "to  be\r\n\n".toList "or\n \nnot".toList (inputs.drop 2) :=
    @CutAtLineEnds.cons _ "or".toList " \nnot".toList _ .lf (isLine rfl) third
  have first : CutAtLineEnds "to  be\r\n".toList "\nor\n \nnot".toList (inputs.drop 1) :=
    @CutAtLineEnds.cons _ [] "or\n \nnot".toList _ .lf (isLine rfl) second
  have cut : CutAtLineEnds [] source inputs :=
    @CutAtLineEnds.cons [] "to  be".toList "\nor\n \nnot".toList _ .crlf (isLine rfl) first
  have valid : presets.Valid := Presets.invalid?_eq_none_iff.mp rfl
  have plain : PlainSource source := by decide +kernel
  have lines : (format presets source).outcome =
      .ok ["   to be".toList, [], "   or".toList, "not".toList] := by decide +kernel
  obtain ⟨outputs, set, formatted, -⟩ := (format_input_lines valid rfl rfl plain).2 inputs cut
  exact ⟨cut, outputs, set, formatted, Except.ok.inj (formatted.symm.trans lines)⟩

end Galley
