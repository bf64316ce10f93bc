import Mathlib.Data.List.Forall2
import Galley.Proofs.PlainText

/-! # Escaped text

Any text without line breaks can be written as words of a document, if a backslash protects the
characters that mean something there (`Galley.escapedText`). It is read as the words that it was
made from (`Galley.lexemes_escapedText`), and it is set as these words are
(`Galley.Composer.run_writing`). Main statement: `Galley.format_escapedText`.
-/

namespace Galley

open Composer (Action)

/-- A word with a backslash before each character that needs one. -/
def escape (word : List Char) : List Char :=
  word.flatMap fun char => if isEscapable char then ['\\', char] else [char]

/-- Words as the text of a document: escaped, with a blank between neighbours. -/
def escapedText (words : List (List Char)) : List Char :=
  [' '].intercalate (words.map escape)

/-- A text that can be a word of a document: it is not empty and has no character of a line
break. -/
def IsWritable (word : List Char) : Prop :=
  word ≠ [] ∧ '\n' ∉ word ∧ '\r' ∉ word

/-- Lexemes that write a word: runs of text and escaped characters, which make up the word. -/
inductive WritesWord : List Lexeme → (word : List Char) → Prop
  | nil : WritesWord [] []
  | text (run : List Char) {units : List Lexeme} {word : List Char}
      (later : WritesWord units word) : WritesWord (.text run :: units) (run ++ word)
  | escaped (char : Char) {units : List Lexeme} {word : List Char}
      (later : WritesWord units word) : WritesWord (.escaped char :: units) (char :: word)

/-! ## Reading -/

theorem escape_cons_of_escapable {char : Char} (escapable : isEscapable char = true)
    (word : List Char) : escape (char :: word) = '\\' :: char :: escape word := by
  rw [escape, List.flatMap_cons, if_pos escapable]
  rfl

theorem escape_cons_of_ordinary {char : Char} (ordinary : isEscapable char = false)
    (word : List Char) : escape (char :: word) = char :: escape word := by
  rw [escape, List.flatMap_cons, if_neg (by simp [ordinary])]
  rfl

theorem isSpecial_of_not_escapable {char : Char} (ordinary : isEscapable char = false)
    (feed : char ≠ '\n') (returns : char ≠ '\r') : isSpecial char = false := by
  simp_all [isSpecial, isEscapable]

/-- An escaped word does not start with a blank. -/
theorem stopsRun_escape {word : List Char} (inhabited : word ≠ []) (rest : List Char) :
    StopsRun isBlank (escape word ++ rest) := by
  obtain ⟨char, word, rfl⟩ := List.exists_cons_of_ne_nil inhabited
  intro first found
  cases escapable : isEscapable char with
  | true =>
      rw [escape_cons_of_escapable escapable] at found
      cases Option.some.inj found
      rfl
  | false =>
      rw [escape_cons_of_ordinary escapable] at found
      cases Option.some.inj found
      simp only [isEscapable, Bool.or_eq_false_iff] at escapable
      exact escapable.1.1.1

/-- A run of ordinary characters is read as one lexeme, unless it is empty. -/
theorem lexemes_run {run rest : List Char} (ordinary : ∀ char ∈ run, isSpecial char = false)
    (stops : StopsRun (fun char => !isSpecial char) rest) :
    ∃ units, lexemes (run ++ rest) = units ++ lexemes rest ∧
      ∀ later word, WritesWord later word → WritesWord (units ++ later) (run ++ word) := by
  by_cases empty : run = []
  · rw [empty]
    exact ⟨[], rfl, fun later word writes => writes⟩
  · exact ⟨[.text run], lexemes_append (.text empty ordinary stops),
      fun later word writes => .text run writes⟩

/-- An escaped word is read as it was, together with ordinary characters before it. -/
theorem lexemes_run_escape {run word rest : List Char}
    (ordinary : ∀ char ∈ run, isSpecial char = false) (noFeed : '\n' ∉ word)
    (noReturn : '\r' ∉ word) (stops : StopsRun (fun char => !isSpecial char) rest) :
    ∃ units, lexemes (run ++ (escape word ++ rest)) = units ++ lexemes rest ∧
      WritesWord units (run ++ word) := by
  induction word generalizing run with
  | nil =>
      obtain ⟨units, read, writes⟩ := lexemes_run ordinary stops
      have whole := writes [] [] .nil
      rw [List.append_nil units] at whole
      exact ⟨units, read, whole⟩
  | cons char word ih =>
      rw [List.mem_cons, not_or] at noFeed noReturn
      cases escapable : isEscapable char with
      | true =>
          -- The run ends at the backslash, and an empty one starts behind the escaped character.
          have nothing : ∀ other ∈ ([] : List Char), isSpecial other = false := by simp
          obtain ⟨later, readLater, writesLater⟩ := ih nothing noFeed.2 noReturn.2
          have backslash : StopsRun (fun char => !isSpecial char)
              ('\\' :: char :: (escape word ++ rest)) := by
            intro first found
            cases Option.some.inj found
            rfl
          obtain ⟨units, read, writes⟩ := lexemes_run ordinary backslash
          refine ⟨units ++ .escaped char :: later, ?_, writes _ _ (.escaped char writesLater)⟩
          have one := lexemes_append (Lexeme.CutBefore.escaped escapable (escape word ++ rest))
          rw [escape_cons_of_escapable escapable, List.cons_append, List.cons_append, read,
            List.append_assoc, List.cons_append, ← readLater]
          exact congrArg (units ++ ·) one
      | false =>
          have longer : ∀ other ∈ run ++ [char], isSpecial other = false := by
            intro other member
            rcases List.mem_append.mp member with early | last
            · exact ordinary other early
            · rw [List.mem_singleton.mp last]
              exact isSpecial_of_not_escapable escapable (Ne.symm noFeed.1) (Ne.symm noReturn.1)
          obtain ⟨units, read, writes⟩ := ih longer noFeed.2 noReturn.2
          rw [List.append_assoc] at read writes
          refine ⟨units, ?_, writes⟩
          rw [escape_cons_of_ordinary escapable]
          exact read

/-- **An escaped word is read as it was.** -/
theorem lexemes_escape {word rest : List Char} (noFeed : '\n' ∉ word) (noReturn : '\r' ∉ word)
    (stops : StopsRun (fun char => !isSpecial char) rest) :
    ∃ units, lexemes (escape word ++ rest) = units ++ lexemes rest ∧ WritesWord units word := by
  have nothing : ∀ char ∈ ([] : List Char), isSpecial char = false := by simp
  exact lexemes_run_escape nothing noFeed noReturn stops

theorem stopsRun_later (words : List (List Char)) :
    StopsRun (fun char => !isSpecial char) (words.flatMap fun word => [' '] ++ escape word) := by
  intro first found
  cases words with
  | nil => simp at found
  | cons =>
      cases Option.some.inj found
      rfl

/-- The escaped words behind the first are read with a blank before each. -/
theorem lexemes_later {words : List (List Char)} (writable : ∀ word ∈ words, IsWritable word) :
    ∃ groups, lexemes (words.flatMap fun word => [' '] ++ escape word) =
        groups.flatMap ([Lexeme.blank [' ']] ++ ·) ∧
      List.Forall₂ WritesWord groups words := by
  induction words with
  | nil => exact ⟨[], lexemes_nil, .nil⟩
  | cons word words ih =>
      obtain ⟨⟨inhabited, noFeed, noReturn⟩, others⟩ := List.forall_mem_cons.mp writable
      obtain ⟨groups, readLater, writesLater⟩ := ih others
      obtain ⟨units, read, writes⟩ := lexemes_escape noFeed noReturn (stopsRun_later words)
      have blank : (Lexeme.blank [' ']).CutBefore
          (escape word ++ words.flatMap fun word => [' '] ++ escape word) :=
        .blank (List.cons_ne_nil _ _) (by simp [isBlank]) (stopsRun_escape inhabited _)
      refine ⟨units :: groups, ?_, .cons writes writesLater⟩
      rw [List.flatMap_cons, List.flatMap_cons, List.append_assoc, List.append_assoc, ← readLater,
        ← read]
      exact lexemes_append blank

/-- **Escaped words are read as they were**, with a blank between neighbours. -/
theorem lexemes_escapedText {words : List (List Char)}
    (writable : ∀ word ∈ words, IsWritable word) :
    ∃ groups, lexemes (escapedText words) = [Lexeme.blank [' ']].intercalate groups ∧
      List.Forall₂ WritesWord groups words := by
  cases words with
  | nil => exact ⟨[], lexemes_nil, .nil⟩
  | cons word words =>
      obtain ⟨⟨-, noFeed, noReturn⟩, others⟩ := List.forall_mem_cons.mp writable
      obtain ⟨groups, readLater, writesLater⟩ := lexemes_later others
      obtain ⟨units, read, writes⟩ := lexemes_escape noFeed noReturn (stopsRun_later words)
      refine ⟨units :: groups, ?_, .cons writes writesLater⟩
      rw [escapedText, List.map_cons, intercalate_cons, intercalate_cons, List.flatMap_map,
        ← readLater]
      exact read

/-! ## Setting -/

theorem WritesWord.content {units : List Lexeme} {word : List Char}
    (writes : WritesWord units word) : ∀ unit ∈ units, unit.IsContent := by
  induction writes with
  | nil => simp
  | text run later ih => exact List.forall_mem_cons.mpr ⟨trivial, ih⟩
  | escaped char later ih => exact List.forall_mem_cons.mpr ⟨trivial, ih⟩

namespace Composer

/-- Lexemes that write a word add it to the word in hand. -/
theorem run_writes {units : List Lexeme} {word : List Char} (writes : WritesWord units word)
    (composer : Composer) (rest : List Action) :
    composer.run (units.flatMap Lexeme.actions ++ rest) =
      { composer with word := composer.word ++ word }.run rest := by
  induction writes generalizing composer with
  | nil => rw [List.append_nil]; rfl
  | @text run units word later ih =>
      have next := ih { composer with word := composer.word ++ run }
      dsimp only at next
      rw [List.append_assoc composer.word] at next
      rw [List.flatMap_cons, List.append_assoc]
      exact next
  | @escaped char units word later ih =>
      have next := ih { composer with word := composer.word ++ [char] }
      dsimp only at next
      rw [List.append_assoc composer.word] at next
      rw [List.flatMap_cons, List.append_assoc]
      exact next

/-- **Written words are set as whole words.** The word in hand is the first of them. -/
theorem run_writing {groups : List (List Lexeme)} {words : List (List Char)}
    (writes : List.Forall₂ WritesWord groups words) (inhabited : ∀ word ∈ words, word ≠ [])
    (composer : Composer) :
    composer.run ((groups.flatMap ([Lexeme.blank [' ']] ++ ·)).flatMap Lexeme.actions ++
        [Action.endParagraph]) =
      { composer with word := [] }.run
        (composer.pending ++ (words.map Action.addWord ++ [Action.endParagraph])) := by
  induction writes generalizing composer with
  | nil => exact (composer.run_endParagraph []).trans (composer.run_finishWord _)
  | @cons group word groups words first later ih =>
      obtain ⟨filled, others⟩ := List.forall_mem_cons.mp inhabited
      have asked : ((group :: groups).flatMap ([Lexeme.blank [' ']] ++ ·)).flatMap Lexeme.actions ++
          [Action.endParagraph] = .finishWord :: (group.flatMap Lexeme.actions ++
            ((groups.flatMap ([Lexeme.blank [' ']] ++ ·)).flatMap Lexeme.actions ++
              [.endParagraph])) := by
        simp [Lexeme.actions]
      rw [asked, run_finishWord]
      refine run_append_congr ?_
      -- Behind the blank no word is in hand, so the next one is added to an empty one.
      generalize reached : { composer with word := [] }.run composer.pending = after
      have empty : after.1.word = [] := by
        rw [← reached, word_run]
        exact builtWord_of_whole fun text member => by simp [pending] at member
      have next := ih others { after.1 with word := word }
      rw [pending_of_word filled] at next
      rw [run_writes first, empty, List.nil_append, next]
      obtain ⟨⟨settings, hand, line, opensParagraph, untouched⟩, rows⟩ := after
      cases empty
      rfl

end Composer

/-! ## Formatting -/

theorem content_of_writes {groups : List (List Lexeme)} {words : List (List Char)}
    (writes : List.Forall₂ WritesWord groups words) :
    ∀ unit ∈ [Lexeme.blank [' ']].intercalate groups, unit.IsContent := by
  have content : ∀ group ∈ groups, ∀ unit ∈ group, unit.IsContent := by
    induction writes with
    | nil => simp
    | cons first later ih => exact List.forall_mem_cons.mpr ⟨first.content, ih⟩
  intro unit member
  rcases mem_intercalate member with rfl | ⟨group, among, inside⟩
  · trivial
  · exact content group among unit inside

/-- The lexemes that write words are set as the words are. -/
theorem Composer.run_intercalate {groups : List (List Lexeme)} {words : List (List Char)}
    (writes : List.Forall₂ WritesWord groups words) (inhabited : ∀ word ∈ words, word ≠ [])
    (settings : Settings) :
    (new settings).run (([Lexeme.blank [' ']].intercalate groups).flatMap Lexeme.actions ++
        [Action.endParagraph]) =
      (new settings).run (words.map Action.addWord ++ [Action.endParagraph]) := by
  cases writes with
  | nil => rfl
  | @cons group word groups words first later =>
      obtain ⟨filled, others⟩ := List.forall_mem_cons.mp inhabited
      have whole := run_writing later others { new settings with word := word }
      rw [pending_of_word filled] at whole
      rw [intercalate_cons, List.flatMap_append, List.append_assoc, run_writes first]
      exact whole

/-- What becomes of words that are escaped and joined by single blanks. They are read as runs of
text and escaped characters that make up the words, with a blank between neighbours, and what is set
is what a stream sets that is given each word as a whole and then the end of a paragraph. -/
structure ReadsBack (presets : Presets) (words : List (List Char)) : Prop where
  read : ∃ groups, (tokens (escapedText words)).map Token.lexeme =
      [Lexeme.blank [' ']].intercalate groups ∧ List.Forall₂ WritesWord groups words
  formatted : (format presets (escapedText words)).outcome =
    .ok ((Stream.new presets.main).run (words.map .addWord ++ [.endParagraph])).pages.lines
  silent : (format presets (escapedText words)).warnings = #[]

/-- **Escaping keeps words as they are.** Whatever characters they have but line breaks, and with
any valid presets, words that are escaped are read and set as these words. -/
theorem format_escapedText {presets : Presets} (valid : presets.Valid) {words : List (List Char)}
    (writable : ∀ word ∈ words, IsWritable word) : ReadsBack presets words := by
  obtain ⟨groups, read, writes⟩ := lexemes_escapedText writable
  have content := content_of_writes writes
  rw [← read] at content
  obtain ⟨formatted, silent⟩ := format_of_content valid content
  refine ⟨⟨groups, ?_, writes⟩, ?_, silent⟩
  · rw [tokens, Piece.tokens, Token.map_lexeme_place, read]
  · have fixed (height : Nat) : Action.change (.measure .textHeight height) ∉
        words.map Action.addWord ++ [.endParagraph] := by simp
    have rows := Composer.run_intercalate writes (fun word member => (writable word member).1)
      presets.main
    rw [formatted, Stream.pages_run (fixed_of_content content), Stream.pages_run fixed, read,
      Stream.rowTexts, Stream.rowTexts]
    exact congrArg (fun run => Except.ok (Pages.addAll _ (run.2.map Row.text)).lines) rows

/-- Words with blanks, braces and a backslash before letters, written as markup. -/
theorem format_escapedText_of_markup :
    let words := ["a b".toList, "\\bold\x7bx\x7d".toList, "\t\\".toList]
    escapedText words = "a\\ b \\\\bold\\\x7bx\\\x7d \\\t\\\\".toList ∧
      ReadsBack Presets.default words := by
  intro words
  have writable : ∀ word ∈ words, word ≠ [] ∧ '\n' ∉ word ∧ '\r' ∉ word := by decide +kernel
  exact ⟨by decide +kernel, format_escapedText (Presets.invalid?_eq_none_iff.mp rfl) writable⟩

end Galley
