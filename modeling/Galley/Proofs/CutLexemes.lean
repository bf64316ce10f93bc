import Galley.Proofs.ScannedLexemes

/-! # A text is cut in one way

What is cut off before the rest of a text is what the lexer reads there (`Galley.Lexeme.scan_eq`).
So lexemes that are each cut off before what the later ones spell are the lexemes of the text that
they spell together (`Galley.Cut.lexemes_eq`), and every text has such lexemes
(`Galley.cut_lexemes`).
-/

namespace Galley

section Runs

variable {continues : Char → Bool} {run rest : List Char}

theorem takeWhile_run (all : ∀ char ∈ run, continues char) (stops : StopsRun continues rest) :
    (run ++ rest).takeWhile continues = run := by
  rw [List.takeWhile_append_of_pos all]
  cases rest with
  | nil => exact List.append_nil run
  | cons char rest => rw [List.takeWhile_cons_of_neg (by simp [stops char rfl]), List.append_nil]

theorem dropWhile_run (all : ∀ char ∈ run, continues char) (stops : StopsRun continues rest) :
    (run ++ rest).dropWhile continues = rest := by
  rw [List.dropWhile_append_of_pos all]
  cases rest with
  | nil => rfl
  | cons char rest => exact List.dropWhile_cons_of_neg (by simp [stops char rfl])

end Runs

/-! ## Line breaks -/

theorem splitLineEnds_of_not_starts {text : List Char} (stops : ¬StartsWithLineEnd text) :
    splitLineEnds text = ([], text) := by
  unfold splitLineEnds
  split
  · rename_i rest
    exact absurd ⟨.lf, rest, rfl⟩ stops
  · rename_i rest
    exact absurd ⟨.crlf, rest, rfl⟩ stops
  · rfl

theorem splitLineEnds_spelling (lineEnd : LineEnd) (rest : List Char) :
    splitLineEnds (lineEnd.spelling ++ rest) =
      (lineEnd :: (splitLineEnds rest).1, (splitLineEnds rest).2) := by
  cases lineEnd <;> simp [LineEnd.spelling, splitLineEnds]

theorem splitLineEnds_flatMap_spelling (ends : List LineEnd) {rest : List Char}
    (stops : ¬StartsWithLineEnd rest) :
    splitLineEnds (ends.flatMap LineEnd.spelling ++ rest) = (ends, rest) := by
  induction ends with
  | nil => exact splitLineEnds_of_not_starts stops
  | cons lineEnd ends ih =>
      rw [List.flatMap_cons, List.append_assoc, splitLineEnds_spelling, ih]

theorem Lexeme.spelling_paragraphBreak (first second : LineEnd) (more : List LineEnd) :
    (paragraphBreak first second more).spelling =
      (first :: second :: more).flatMap LineEnd.spelling := by
  rw [spelling, List.flatMap_cons, List.flatMap_cons, List.append_assoc]

theorem not_startsWithLineEnd_cons {char : Char} {rest : List Char} (feed : char ≠ '\n')
    (lone : char = '\r' → rest.head? ≠ some '\n') : ¬StartsWithLineEnd (char :: rest) := by
  rintro ⟨lineEnd, after, same⟩
  cases lineEnd with
  | lf => exact feed (List.cons.inj same).1
  | crlf =>
      obtain ⟨same, behind⟩ := List.cons.inj same
      exact lone same (by rw [behind]; rfl)

/-! ## One lexeme -/

namespace Lexeme

/-- Away from blanks and line breaks, the first character alone says what is read. -/
theorem scan_of_other {char : Char} {rest : List Char} (solid : isBlank char = false)
    (noBreak : ¬StartsWithLineEnd (char :: rest)) :
    scan char rest =
      if char = '\\' then scanBackslash rest
      else if isSpecial char then (stray char, rest)
      else (text (char :: rest.takeWhile (!isSpecial ·)), rest.dropWhile (!isSpecial ·)) := by
  simp [scan, solid, splitLineEnds_of_not_starts noBreak]

theorem scan_of_lineEnds {char : Char} {rest after : List Char} {ends : List LineEnd}
    (split : splitLineEnds (char :: rest) = (ends, after)) (inhabited : ends ≠ []) :
    scan char rest = match ends with
      | [lineEnd] => (lineBreak lineEnd, after)
      | first :: second :: more => (paragraphBreak first second more, after)
      | [] => scan char rest := by
  have solid : isBlank char = false := by
    unfold splitLineEnds at split
    split at split
    · rename_i same
      cases same
      rfl
    · rename_i same
      cases same
      rfl
    · cases split
      exact absurd rfl inhabited
  match ends with
  | [] => rfl
  | [lineEnd] => simp [scan, solid, split]
  | first :: second :: more => simp [scan, solid, split]

theorem scan_backslash (rest : List Char) : scan '\\' rest = scanBackslash rest := by
  have noBreak : ¬StartsWithLineEnd ('\\' :: rest) :=
    not_startsWithLineEnd_cons (by decide) fun same => absurd same (by decide)
  rw [scan_of_other rfl noBreak, if_pos rfl]

theorem scanBackslash_name {name rest : List Char} (inhabited : name ≠ [])
    (letters : ∀ char ∈ name, isLetter char) (stops : StopsRun isLetter rest) :
    scanBackslash (name ++ rest) = scanCommand name rest := by
  obtain ⟨first, name, rfl⟩ := List.exists_cons_of_ne_nil inhabited
  obtain ⟨letter, letters⟩ := List.forall_mem_cons.mp letters
  have plain : isEscapable first = false := by
    refine Bool.eq_false_iff.mpr fun escapable => ?_
    simp only [isEscapable, isBlank, Bool.or_eq_true, decide_eq_true_eq] at escapable
    rcases escapable with (((rfl | rfl) | rfl) | rfl) | rfl <;> exact absurd letter (by decide)
  rw [List.cons_append, scanBackslash, if_neg (by simp [plain]), if_pos letter,
    takeWhile_run letters stops, dropWhile_run letters stops]

/-- **One step.** A lexeme that is cut off before the rest of a text is read there. -/
theorem scan_eq {unit : Lexeme} {rest : List Char} (cut : unit.CutBefore rest) {char : Char}
    {tail : List Char} (whole : unit.spelling ++ rest = char :: tail) :
    scan char tail = (unit, rest) := by
  cases cut with
  | @blank run _ inhabited blanks stops =>
      obtain ⟨first, run, rfl⟩ := List.exists_cons_of_ne_nil inhabited
      obtain ⟨blank, blanks⟩ := List.forall_mem_cons.mp blanks
      simp only [spelling, List.cons_append, List.cons.injEq] at whole
      obtain ⟨rfl, rfl⟩ := whole
      rw [scan, if_pos blank, takeWhile_run blanks stops, dropWhile_run blanks stops]
  | lineBreak lineEnd stops =>
      have split := splitLineEnds_flatMap_spelling [lineEnd] stops
      rw [List.flatMap_singleton] at split
      exact scan_of_lineEnds ((congrArg splitLineEnds whole).symm.trans split)
        (List.cons_ne_nil _ _)
  | paragraphBreak first second more stops =>
      have split := splitLineEnds_flatMap_spelling (first :: second :: more) stops
      rw [← spelling_paragraphBreak] at split
      exact scan_of_lineEnds ((congrArg splitLineEnds whole).symm.trans split)
        (List.cons_ne_nil _ _)
  | escaped escapable =>
      simp only [spelling, List.cons_append, List.nil_append, List.cons.injEq] at whole
      obtain ⟨rfl, rfl⟩ := whole
      rw [scan_backslash, scanBackslash, if_pos escapable]
  | @bareCommand name _ inhabited letters stops =>
      simp only [spelling, List.cons_append, List.cons.injEq] at whole
      obtain ⟨rfl, rfl⟩ := whole
      have ends : StopsRun isLetter rest := fun char first =>
        (Bool.or_eq_false_iff.mp (stops char first)).1
      rw [scan_backslash, scanBackslash_name inhabited letters ends]
      unfold scanCommand
      split
      · have brace := stops '{' rfl
        simp at brace
      · rfl
  | @command name argument _ inhabited letters closed =>
      have parts : name ++ '{' :: (argument ++ '}' :: rest) = tail := by
        simpa [spelling] using (List.cons.inj whole).2
      obtain ⟨rfl, -⟩ := List.cons.inj whole
      have ends : StopsRun isLetter ('{' :: (argument ++ '}' :: rest)) := by
        intro other first
        cases Option.some.inj first
        decide
      rw [scan_backslash, ← parts, scanBackslash_name inhabited letters ends, scanCommand, closed]
  | @unclosed name later inhabited letters unmatched =>
      have parts : name ++ '{' :: later = tail := by
        simpa [spelling] using (List.cons.inj whole).2
      obtain ⟨rfl, -⟩ := List.cons.inj whole
      have ends : StopsRun isLetter ('{' :: later) := by
        intro other first
        cases Option.some.inj first
        decide
      rw [scan_backslash, ← parts, scanBackslash_name inhabited letters ends, scanCommand,
        unmatched]
  | @text run _ inhabited ordinary stops =>
      obtain ⟨first, run, rfl⟩ := List.exists_cons_of_ne_nil inhabited
      obtain ⟨plain, ordinary⟩ := List.forall_mem_cons.mp ordinary
      simp only [spelling, List.cons_append, List.cons.injEq] at whole
      obtain ⟨rfl, rfl⟩ := whole
      have others : ∀ char ∈ run, !isSpecial char := fun char member => by
        simp [ordinary char member]
      have solid : isBlank first = false ∧ first ≠ '\\' ∧ first ≠ '\n' ∧ first ≠ '\r' := by
        simp only [isSpecial, Bool.or_eq_false_iff, decide_eq_false_iff_not] at plain
        exact ⟨plain.1.1.1.1.1, plain.1.1.2, plain.1.1.1.2, plain.1.1.1.1.2⟩
      rw [scan_of_other solid.1
        (not_startsWithLineEnd_cons solid.2.2.1 fun same => absurd same solid.2.2.2),
        if_neg solid.2.1, if_neg (by simp [plain]), takeWhile_run others stops,
        dropWhile_run others stops]
  | backslash stops =>
      simp only [spelling, List.cons_append, List.nil_append, List.cons.injEq] at whole
      obtain ⟨rfl, rfl⟩ := whole
      rw [scan_backslash]
      cases rest with
      | nil => rfl
      | cons next rest =>
          obtain ⟨plain, noLetter⟩ := Bool.or_eq_false_iff.mp (stops next rfl)
          rw [scanBackslash, if_neg (by simp [plain]), if_neg (by simp [noLetter])]
  | @brace char brace =>
      simp only [spelling, List.cons_append, List.nil_append, List.cons.injEq] at whole
      obtain ⟨rfl, rfl⟩ := whole
      have solid : isBlank char = false ∧ char ≠ '\\' ∧ char ≠ '\n' ∧ char ≠ '\r' := by
        rcases brace with rfl | rfl <;> decide
      have special : isSpecial char = true := by
        rcases brace with rfl | rfl <;> rfl
      rw [scan_of_other solid.1
        (not_startsWithLineEnd_cons solid.2.2.1 fun same => absurd same solid.2.2.2),
        if_neg solid.2.1, if_pos special]
  | carriageReturn stops =>
      simp only [spelling, List.cons_append, List.nil_append, List.cons.injEq] at whole
      obtain ⟨rfl, rfl⟩ := whole
      have lone : rest.head? ≠ some '\n' := by
        intro first
        simpa using stops '\n' first
      rw [scan_of_other rfl (not_startsWithLineEnd_cons (by decide) fun _ => lone),
        if_neg (by decide), if_pos (by decide)]

end Lexeme

/-! ## All lexemes -/

/-- Lexemes that are each cut off before what the later ones spell. -/
inductive Cut : List Lexeme → Prop
  | nil : Cut []
  | cons {unit : Lexeme} {rest : List Lexeme}
      (first : unit.CutBefore (rest.flatMap Lexeme.spelling)) (later : Cut rest) :
      Cut (unit :: rest)

theorem Lexeme.CutBefore.spelling_ne_nil {unit : Lexeme} {rest : List Char}
    (cut : unit.CutBefore rest) : unit.spelling ≠ [] := by
  cases cut with
  | blank inhabited => exact inhabited
  | lineBreak lineEnd => cases lineEnd <;> exact List.cons_ne_nil _ _
  | paragraphBreak first => cases first <;> exact List.cons_ne_nil _ _
  | text inhabited => exact inhabited
  | _ => exact List.cons_ne_nil _ _

/-- The lexemes of a text start with what is cut off before the rest of it. -/
theorem lexemes_append {unit : Lexeme} {rest : List Char} (cut : unit.CutBefore rest) :
    lexemes (unit.spelling ++ rest) = unit :: lexemes rest := by
  obtain ⟨char, tail, whole⟩ : ∃ char tail, unit.spelling ++ rest = char :: tail :=
    List.exists_cons_of_ne_nil (List.append_ne_nil_of_left_ne_nil cut.spelling_ne_nil rest)
  rw [whole, lexemes, Lexeme.scan_eq cut whole]

theorem lexemes_nil : lexemes [] = [] := by
  rw [lexemes]

theorem Cut.lexemes_eq {units : List Lexeme} (cut : Cut units) :
    lexemes (units.flatMap Lexeme.spelling) = units := by
  induction cut with
  | nil => exact lexemes_nil
  | cons first later ih => rw [List.flatMap_cons, lexemes_append first, ih]

theorem cut_lexemes (text : List Char) : Cut (lexemes text) := by
  fun_induction lexemes text with
  | case1 => exact .nil
  | case2 char rest scanned ih =>
      refine .cons ?_ ih
      rw [flatMap_spelling_lexemes]
      exact Lexeme.cutBefore_scan char rest

end Galley
