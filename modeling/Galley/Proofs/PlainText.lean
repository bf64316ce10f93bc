import Galley.Proofs.CutLexemes
import Galley.Proofs.PageHeights

/-! # Plain text

A source without markup characters and without lone carriage returns is cut into blanks, line ends
and text (`Galley.PlainSource.unmarked_lexemes`). It shows no problem and has no endnotes, as every
source without commands (`Galley.format_of_content`), and each run of text in it is a word
(`Galley.Composer.run_unmarked`). So on pages without bound its lines are the rows that its words
are composed in (`Galley.PlainSource.outcome_format`).
-/

namespace Galley

open Composer (Action)

/-- A source without backslashes and braces in which a line feed follows each carriage return. -/
structure PlainSource (source : List Char) : Prop where
  unmarked : ∀ char ∈ source, char ≠ '\\' ∧ char ≠ '{' ∧ char ≠ '}'
  paired : ∀ index, source[index]? = some '\r' → source[index + 1]? = some '\n'

theorem plainSource_iff {source : List Char} : PlainSource source ↔
    (source.all fun char => char ≠ '\\' && char ≠ '{' && char ≠ '}') ∧
      ∀ index < source.length, source[index]? = some '\r' → source[index + 1]? = some '\n' := by
  simp only [List.all_eq_true, Bool.and_eq_true, decide_eq_true_eq, and_assoc]
  constructor
  · exact fun plain => ⟨plain.unmarked, fun index _ => plain.paired index⟩
  · rintro ⟨unmarked, paired⟩
    exact ⟨unmarked, fun index lone => paired index (List.getElem?_eq_some_iff.mp lone).1 lone⟩

instance (source : List Char) : Decidable (PlainSource source) :=
  decidable_of_iff' _ plainSource_iff

theorem PlainSource.tail {first rest : List Char} (plain : PlainSource (first ++ rest)) :
    PlainSource rest where
  unmarked := fun char member => plain.unmarked char (List.mem_append_right _ member)
  paired := by
    intro index lone
    have shift (offset : Nat) : (first ++ rest)[first.length + offset]? = rest[offset]? := by
      rw [List.getElem?_append_right (Nat.le_add_right _ _), Nat.add_sub_cancel_left]
    rw [← shift, ← Nat.add_assoc]
    exact plain.paired _ ((shift index).trans lone)

/-- A text is plain if it has neither markup characters nor carriage returns. -/
theorem PlainSource.of_no_returns {source : List Char}
    (unmarked : ∀ char ∈ source, char ≠ '\\' ∧ char ≠ '{' ∧ char ≠ '}') (feeds : '\r' ∉ source) :
    PlainSource source where
  unmarked := unmarked
  paired := fun _ lone => absurd (List.mem_of_getElem? lone) feeds

/-! ## Its lexemes -/

/-- A text is a word if no character in it separates words. -/
def IsWord (text : List Char) : Prop :=
  text ≠ [] ∧ ∀ char ∈ text, isSpecial char = false

/-- A lexeme that carries no markup. -/
inductive Lexeme.Unmarked : Lexeme → Prop
  | blank (run : List Char) : Unmarked (.blank run)
  | lineBreak (lineEnd : LineEnd) : Unmarked (.lineBreak lineEnd)
  | paragraphBreak (first second : LineEnd) (more : List LineEnd) :
      Unmarked (.paragraphBreak first second more)
  | text {run : List Char} (word : IsWord run) : Unmarked (.text run)

theorem Lexeme.CutBefore.unmarked {unit : Lexeme} {rest : List Char} (cut : unit.CutBefore rest)
    (plain : PlainSource (unit.spelling ++ rest)) : unit.Unmarked := by
  have markup (char : Char) (spelled : char ∈ unit.spelling) :=
    plain.unmarked char (List.mem_append_left _ spelled)
  cases cut with
  | blank inhabited blanks stops => exact .blank _
  | lineBreak lineEnd stops => exact .lineBreak lineEnd
  | paragraphBreak first second more stops => exact .paragraphBreak first second more
  | text inhabited ordinary stops => exact .text ⟨inhabited, ordinary⟩
  | brace brace =>
      obtain ⟨-, opening, closing⟩ := markup _ List.mem_cons_self
      rcases brace with rfl | rfl
      · exact absurd rfl opening
      · exact absurd rfl closing
  | carriageReturn stops =>
      have feed : rest[0]? = some '\n' := plain.paired 0 rfl
      rw [← List.head?_eq_getElem?] at feed
      simpa using stops '\n' feed
  | _ => exact absurd rfl (markup '\\' List.mem_cons_self).1

theorem Cut.unmarked {units : List Lexeme} (cut : Cut units)
    (plain : PlainSource (units.flatMap Lexeme.spelling)) : ∀ unit ∈ units, unit.Unmarked := by
  induction cut with
  | nil => simp
  | cons first later ih =>
      rw [List.flatMap_cons] at plain
      exact List.forall_mem_cons.mpr ⟨first.unmarked plain, ih plain.tail⟩

/-- **Plain text is cut into lexemes without markup.** -/
theorem PlainSource.unmarked_lexemes {source : List Char} (plain : PlainSource source) :
    ∀ unit ∈ lexemes source, unit.Unmarked := by
  rw [← flatMap_spelling_lexemes source] at plain
  exact (cut_lexemes source).unmarked plain

/-! ## Lexemes without commands -/

/-- A lexeme that is neither a command nor a problem. -/
def Lexeme.IsContent : Lexeme → Prop
  | .command _ _ | .unclosed _ _ | .stray _ => False
  | _ => True

theorem Lexeme.Unmarked.isContent {unit : Lexeme} (unmarked : unit.Unmarked) : unit.IsContent := by
  cases unmarked <;> trivial

section Content

variable {units : List Lexeme}

theorem noteBodies_of_content (content : ∀ unit ∈ units, unit.IsContent) :
    noteBodies units = [] := by
  refine List.filterMap_eq_nil_iff.mpr fun unit member => ?_
  cases unit with
  | command => exact (content _ member).elim
  | _ => rfl

theorem mainActions_of_content (content : ∀ unit ∈ units, unit.IsContent) (number : Nat) :
    mainActions number units = units.flatMap Lexeme.actions := by
  induction units with
  | nil => rfl
  | cons unit units ih =>
      obtain ⟨first, later⟩ := List.forall_mem_cons.mp content
      have unnoted : unit.noteBody? = none := by
        cases unit with
        | command => exact first.elim
        | _ => rfl
      simp only [mainActions, unnoted, ih later, List.flatMap_cons]

theorem heightUnset_of_content (content : ∀ unit ∈ units, unit.IsContent) :
    HeightUnset units := by
  intro unit member
  cases unit with
  | command => exact (content _ member).elim
  | _ => simp [Lexeme.commandName?]

theorem fixed_of_content (content : ∀ unit ∈ units, unit.IsContent) (height : Nat) :
    Action.change (.measure .textHeight height) ∉
      units.flatMap Lexeme.actions ++ [.endParagraph] := by
  rw [← mainActions_of_content content 1]
  simp [textHeight_not_mem_mainActions (heightUnset_of_content content)]

/-- Lexemes that are neither commands nor problems show no problem and give no warning. -/
theorem found_of_content (content : ∀ unit ∈ units, unit.IsContent) (start : Nat) :
    firstProblem? .normal (Token.place start units) = none ∧
      foundWarnings .normal (Token.place start units) = [] := by
  induction units generalizing start with
  | nil => exact ⟨firstProblem?_nil _, foundWarnings_nil _⟩
  | cons unit units ih =>
      obtain ⟨first, later⟩ := List.forall_mem_cons.mp content
      have quiet : Token.problem? .normal ⟨start, unit⟩ = none ∧
          Token.noteTokens ⟨start, unit⟩ = [] ∧ Token.warning? ⟨start, unit⟩ = none := by
        cases unit with
        | command | unclosed | stray => exact first.elim
        | _ => exact ⟨rfl, rfl, rfl⟩
      obtain ⟨clean, unnoted, silent⟩ := quiet
      obtain ⟨cleanLater, silentLater⟩ := ih later (start + byteLength unit.spelling)
      rw [Token.place, firstProblem?_cons, foundWarnings_of_clean clean, clean, unnoted, silent,
        firstProblem?_nil, foundWarnings_nil, if_pos rfl, cleanLater, silentLater]
      exact ⟨rfl, rfl⟩

/-- A source without commands and problems is formatted as the lines of its main text. -/
theorem format_of_content {presets : Presets} (valid : presets.Valid) {source : List Char}
    (content : ∀ unit ∈ lexemes source, unit.IsContent) :
    (format presets source).outcome = .ok ((Stream.new presets.main).run
        ((lexemes source).flatMap Lexeme.actions ++ [.endParagraph])).pages.lines ∧
      (format presets source).warnings = #[] := by
  have found : firstProblem? .normal (tokens source) = none ∧
      foundWarnings .normal (tokens source) = [] := found_of_content content 0
  constructor
  · rw [outcome_format_eq valid, found.1, composedPages, noteBodies_of_content content,
      lines_noteStream, mainStream, mainActions_of_content content]
    rfl
  · apply Array.toList_inj.mp
    rw [warnings_format valid, found.2]

end Content

/-! ## Its words -/

/-- The actions of a lexeme without markup, where text is added as a whole word. -/
def Lexeme.wordActions : Lexeme → List Action
  | .text run => [.addWord run]
  | .lineBreak _ => [.endLine]
  | .paragraphBreak _ _ _ => [.endParagraph]
  | _ => []

theorem Lexeme.Unmarked.actions_eq {unit : Lexeme} (unmarked : unit.Unmarked) :
    unit.actions = .finishWord :: unit.wordActions ∨ ∃ run, unit = .text run ∧ IsWord run := by
  cases unmarked with
  | text word => exact Or.inr ⟨_, rfl, word⟩
  | _ => exact Or.inl rfl

theorem Lexeme.addText_not_mem_wordActions (unit : Lexeme) (text : List Char) :
    Action.addText text ∉ unit.wordActions := by
  cases unit <;> simp [wordActions]

namespace Composer

theorem builtWord_of_whole {actions : List Action} (whole : ∀ text, Action.addText text ∉ actions) :
    builtWord [] actions = [] := by
  induction actions with
  | nil => rfl
  | cons action rest ih =>
      have later := ih fun text member => whole text (List.mem_cons_of_mem _ member)
      cases action with
      | addText text => exact absurd List.mem_cons_self (whole text)
      | _ => exact later

theorem run_append_congr {composer : Composer} {early first second : List Action}
    (same : (composer.run early).1.run first = (composer.run early).1.run second) :
    composer.run (early ++ first) = composer.run (early ++ second) := by
  rw [run_append, run_append, same]

/-- The word in hand as an action that adds it as a whole. -/
def pending (composer : Composer) : List Action :=
  (Action.finishWord.finishes composer.word).map .addWord

theorem pending_of_word {word : List Char} (filled : word ≠ []) (composer : Composer) :
    pending { composer with word := word } = [.addWord word] := by
  simp [pending, filled, Action.finishes]

/-- Ending a word is adding it as a whole. -/
theorem run_finishWord (composer : Composer) (rest : List Action) :
    composer.run (.finishWord :: rest) =
      { composer with word := [] }.run (composer.pending ++ rest) := by
  obtain ⟨settings, word, words, opensParagraph, untouched⟩ := composer
  by_cases empty : word = []
  · cases empty
    rfl
  · simp [run, step, finishWord, pending, Action.finishes, empty]

/-- The end of a paragraph ends the word in hand first. -/
theorem run_endParagraph (composer : Composer) (rest : List Action) :
    composer.run (.endParagraph :: rest) = composer.run (.finishWord :: .endParagraph :: rest) := by
  have finished : composer.finishWord.1.finishWord = (composer.finishWord.1, []) := by
    rw [finishWord, if_pos composer.word_finishWord]
  simp [run, step, endParagraph, finished]

/-- **Runs of text are words.** Composing lexemes without markup is composing whole words, of which
the word in hand is the first. No run of text directly follows it. -/
theorem run_unmarked {units : List Lexeme} (cut : Cut units)
    (unmarked : ∀ unit ∈ units, unit.Unmarked) (composer : Composer)
    (separate : composer.word = [] ∨
      StopsRun (fun char => !isSpecial char) (units.flatMap Lexeme.spelling)) :
    composer.run (units.flatMap Lexeme.actions ++ [.endParagraph]) =
      { composer with word := [] }.run
        (composer.pending ++ (units.flatMap Lexeme.wordActions ++ [Action.endParagraph])) := by
  induction cut generalizing composer with
  | nil => exact (composer.run_endParagraph []).trans (composer.run_finishWord _)
  | @cons unit rest first later ih =>
      obtain ⟨plain, plainRest⟩ := List.forall_mem_cons.mp unmarked
      rw [List.flatMap_cons, List.flatMap_cons]
      rcases plain.actions_eq with finishes | ⟨run, rfl, inhabited, ordinary⟩
      · rw [finishes, List.cons_append, List.cons_append, run_finishWord, List.append_assoc,
          List.append_assoc, ← List.append_assoc composer.pending,
          ← List.append_assoc composer.pending]
        refine run_append_congr ?_
        -- Behind a blank or a line end no word is in hand.
        generalize reached :
          { composer with word := [] }.run (composer.pending ++ unit.wordActions) = after
        have whole : after.1.word = [] := by
          rw [← reached, word_run]
          refine builtWord_of_whole fun text member => ?_
          rcases List.mem_append.mp member with held | asked
          · simp [pending] at held
          · exact unit.addText_not_mem_wordActions text asked
        have next := ih plainRest after.1 (Or.inl whole)
        obtain ⟨⟨settings, word, words, opensParagraph, untouched⟩, rows⟩ := after
        cases whole
        exact next
      · have whole : composer.word = [] := by
          rcases separate with whole | stops
          · exact whole
          · obtain ⟨char, more, rfl⟩ := List.exists_cons_of_ne_nil inhabited
            have special := stops char rfl
            simp [ordinary char List.mem_cons_self] at special
        have stops : StopsRun (fun char => !isSpecial char) (rest.flatMap Lexeme.spelling) := by
          cases first with
          | text _ _ stops => exact stops
        have next := ih plainRest { composer with word := run } (Or.inr stops)
        have started : composer.step (.addText run) = ({ composer with word := run }, []) := by
          rw [step, whole, List.nil_append]
        have nothing : composer.pending = [] := by simp [pending, whole, Action.finishes]
        rw [pending_of_word inhabited] at next
        rw [nothing, Lexeme.actions, List.append_assoc, List.singleton_append, Composer.run,
          started, next]
        rfl

end Composer

/-! ## Its lines -/

/-- The rows that the words of lexemes without markup are composed in. -/
def plainRows (settings : Settings) (units : List Lexeme) : List Row :=
  ((Composer.new settings).run (units.flatMap Lexeme.wordActions ++ [.endParagraph])).2

theorem PlainSource.outcome_format {presets : Presets} (valid : presets.Valid)
    (unbounded : presets.main.textHeight = none) {source : List Char} (plain : PlainSource source) :
    (format presets source).outcome =
      .ok ((plainRows presets.main (lexemes source)).map Row.text) := by
  have unmarked := plain.unmarked_lexemes
  have content : ∀ unit ∈ lexemes source, unit.IsContent := fun unit member =>
    (unmarked unit member).isContent
  have whole := Composer.run_unmarked (cut_lexemes source) unmarked (.new presets.main)
    (Or.inl rfl)
  rw [(format_of_content valid content).1, Stream.pages_run (fixed_of_content content),
    Pages.lines_addAll_of_unbounded unbounded]
  exact congrArg (fun run => Except.ok (run.2.map Row.text)) whole

end Galley
