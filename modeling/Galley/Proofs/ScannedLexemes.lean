import Galley.Markup.Lexeme

/-! # What lexemes are made of

A lexeme is cut off from a text because of what it is made of and because of the character that
comes after it. Main statements: every step of cutting is such a cut
(`Galley.Lexeme.cutBefore_scan`), and so is every lexeme of a text, before all that the later
lexemes spell (`Galley.cutBefore_of_lexemes_eq`).
-/

namespace Galley

/-- A text is empty or starts with a character outside of a class. -/
def StopsRun (continues : Char → Bool) (rest : List Char) : Prop :=
  ∀ char ∈ rest.head?, continues char = false

/-- A text starts with a line break. -/
def StartsWithLineEnd (text : List Char) : Prop :=
  ∃ (lineEnd : LineEnd) (rest : List Char), text = lineEnd.spelling ++ rest

/-- How a lexeme is cut off before the rest of a text. Runs and names are as long as they can be, an
argument ends at the first brace that closes it, and a character is stray only where it starts
nothing. -/
inductive Lexeme.CutBefore : Lexeme → (rest : List Char) → Prop
  | blank {run rest : List Char} (inhabited : run ≠ []) (blanks : ∀ char ∈ run, isBlank char)
      (stops : StopsRun isBlank rest) : CutBefore (.blank run) rest
  | lineBreak (lineEnd : LineEnd) {rest : List Char} (stops : ¬StartsWithLineEnd rest) :
      CutBefore (.lineBreak lineEnd) rest
  | paragraphBreak (first second : LineEnd) (more : List LineEnd) {rest : List Char}
      (stops : ¬StartsWithLineEnd rest) : CutBefore (.paragraphBreak first second more) rest
  | escaped {char : Char} (escapable : isEscapable char) (rest : List Char) :
      CutBefore (.escaped char) rest
  | bareCommand {name rest : List Char} (inhabited : name ≠ [])
      (letters : ∀ char ∈ name, isLetter char)
      (stops : StopsRun (fun char => isLetter char || char = '{') rest) :
      CutBefore (.command name none) rest
  | command {name argument rest : List Char} (inhabited : name ≠ [])
      (letters : ∀ char ∈ name, isLetter char)
      (closed : splitArgument 0 (argument ++ '}' :: rest) = some (argument, rest)) :
      CutBefore (.command name (some argument)) rest
  | unclosed {name later : List Char} (inhabited : name ≠ [])
      (letters : ∀ char ∈ name, isLetter char) (unmatched : splitArgument 0 later = none) :
      CutBefore (.unclosed name later) []
  | text {run rest : List Char} (inhabited : run ≠ [])
      (ordinary : ∀ char ∈ run, isSpecial char = false)
      (stops : StopsRun (fun char => !isSpecial char) rest) : CutBefore (.text run) rest
  | backslash {rest : List Char}
      (stops : StopsRun (fun char => isEscapable char || isLetter char) rest) :
      CutBefore (.stray '\\') rest
  | brace {char : Char} (brace : char = '{' ∨ char = '}') (rest : List Char) :
      CutBefore (.stray char) rest
  | carriageReturn {rest : List Char} (stops : StopsRun (· = '\n') rest) :
      CutBefore (.stray '\r') rest

theorem stopsRun_dropWhile (continues : Char → Bool) (text : List Char) :
    StopsRun continues (text.dropWhile continues) := by
  intro char first
  have stopped := List.head?_dropWhile_not continues text
  rw [Option.mem_def.mp first] at stopped
  exact stopped

theorem not_startsWithLineEnd_of_splitLineEnds {text : List Char}
    (none : (splitLineEnds text).1 = []) : ¬StartsWithLineEnd text := by
  rintro ⟨lineEnd, rest, rfl⟩
  cases lineEnd <;> simp [LineEnd.spelling, splitLineEnds] at none

/-- All line breaks at the start of a text are split off. -/
theorem not_startsWithLineEnd_splitLineEnds (text : List Char) :
    ¬StartsWithLineEnd (splitLineEnds text).2 := by
  fun_induction splitLineEnds text with
  | case1 rest split ih => exact ih
  | case2 rest split ih => exact ih
  | case3 rest noFeed noPair =>
      rintro ⟨lineEnd, after, same⟩
      cases lineEnd with
      | lf => exact noFeed after same
      | crlf => exact noPair after same

namespace Lexeme

theorem cutBefore_scanCommand {name rest : List Char} (inhabited : name ≠ [])
    (letters : ∀ char ∈ name, isLetter char) (stops : StopsRun isLetter rest) :
    CutBefore (scanCommand name rest).1 (scanCommand name rest).2 := by
  unfold scanCommand
  split
  · split
    · rename_i argument after split
      rw [eq_append_of_splitArgument split] at split
      exact .command inhabited letters split
    · rename_i unmatched
      exact .unclosed inhabited letters unmatched
  · rename_i noBrace
    refine .bareCommand inhabited letters fun char first => ?_
    obtain ⟨tail, rfl⟩ := List.head?_eq_some_iff.mp first
    have other : char ≠ '{' := fun same => noBrace tail (by rw [same])
    simp [stops char first, other]

theorem cutBefore_scanBackslash (rest : List Char) :
    CutBefore (scanBackslash rest).1 (scanBackslash rest).2 := by
  unfold scanBackslash
  split
  · exact .backslash fun char first => by simp at first
  · rename_i char rest
    split
    · rename_i escapable
      exact .escaped escapable rest
    · rename_i plain
      split
      · rename_i letter
        refine cutBefore_scanCommand (List.cons_ne_nil _ _) ?_ (stopsRun_dropWhile isLetter rest)
        rw [List.forall_mem_cons]
        exact ⟨letter, List.all_eq_true.mp List.all_takeWhile⟩
      · rename_i noLetter
        refine .backslash fun other first => ?_
        cases Option.some.inj first
        simp [plain, noLetter]

/-- Every step of the lexer is a cut. -/
theorem cutBefore_scan (char : Char) (rest : List Char) :
    CutBefore (scan char rest).1 (scan char rest).2 := by
  unfold scan
  split
  · rename_i blank
    refine .blank (List.cons_ne_nil _ _) ?_ (stopsRun_dropWhile isBlank rest)
    rw [List.forall_mem_cons]
    exact ⟨blank, List.all_eq_true.mp List.all_takeWhile⟩
  · rename_i noBlank
    have ended := not_startsWithLineEnd_splitLineEnds (char :: rest)
    split
    · rename_i split
      rw [split] at ended
      exact .lineBreak _ ended
    · rename_i split
      rw [split] at ended
      exact .paragraphBreak _ _ _ ended
    · rename_i split
      have noBreak := not_startsWithLineEnd_of_splitLineEnds (congrArg Prod.fst split)
      split
      · exact cutBefore_scanBackslash rest
      · rename_i noBackslash
        split
        · rename_i special
          simp only [isSpecial, noBlank, noBackslash, Bool.false_or, Bool.or_eq_true,
            decide_eq_true_eq, or_false] at special
          rcases special with ((rfl | rfl) | rfl) | rfl
          · refine .carriageReturn fun char first => ?_
            obtain ⟨tail, rfl⟩ := List.head?_eq_some_iff.mp first
            have other : char ≠ '\n' := fun same => noBreak ⟨.crlf, tail, by rw [same]; rfl⟩
            simpa using other
          · exact absurd ⟨.lf, rest, rfl⟩ noBreak
          · exact .brace (Or.inl rfl) rest
          · exact .brace (Or.inr rfl) rest
        · rename_i ordinary
          refine .text (List.cons_ne_nil _ _) ?_ (stopsRun_dropWhile _ rest)
          rw [List.forall_mem_cons]
          refine ⟨by simpa using ordinary, fun char member => ?_⟩
          simpa using List.all_eq_true.mp List.all_takeWhile char member

end Lexeme

/-- Wherever the lexemes of a text are split, each is cut off before what the later ones spell. -/
theorem cutBefore_of_lexemes_eq {text : List Char} {before after : List Lexeme} {unit : Lexeme}
    (split : lexemes text = before ++ unit :: after) :
    unit.CutBefore (after.flatMap Lexeme.spelling) := by
  induction before generalizing text with
  | nil =>
      cases text with
      | nil => simp [lexemes] at split
      | cons char rest =>
          rw [lexemes] at split
          obtain ⟨rfl, rfl⟩ := List.cons.inj split
          rw [flatMap_spelling_lexemes]
          exact Lexeme.cutBefore_scan char rest
  | cons first before ih =>
      cases text with
      | nil => simp [lexemes] at split
      | cons char rest =>
          rw [lexemes] at split
          exact ih (List.cons.inj split).2

end Galley
