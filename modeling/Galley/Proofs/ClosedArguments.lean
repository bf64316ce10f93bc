import Mathlib.Control.Monad.Basic
import Galley.Formatting
import Galley.Proofs.DocumentTiling
import Galley.Proofs.ReadStreams

/-! # Arguments are closed

The argument of a command is a text in which all braces close (`Galley.splitArgument_eq_some_iff`).
Wherever such a text is cut into lexemes, the rest of it closes the braces that are still open
(`Galley.Closes.of_cut`), so no command in it lacks its closing brace. Main statement: only a
command of the document itself can lack it, at no depth one in an argument
(`Galley.arguments_are_closed`).
-/

namespace Galley

/-! ## Texts that close their braces -/

/-- A character that neither is a brace nor protects one. -/
def IsPlain (char : Char) : Prop :=
  char ≠ '\\' ∧ char ≠ '{' ∧ char ≠ '}'

/-- The braces of a text close, those that it opens and `depth` more that were opened before it. A
backslash protects the character after it, which has to be there. -/
inductive Closes : (depth : Nat) → List Char → Prop
  | nil : Closes 0 []
  | plain {depth : Nat} {char : Char} {rest : List Char} (plain : IsPlain char)
      (later : Closes depth rest) : Closes depth (char :: rest)
  | guarded {depth : Nat} (char : Char) {rest : List Char} (later : Closes depth rest) :
      Closes depth ('\\' :: char :: rest)
  | opening {depth : Nat} {rest : List Char} (later : Closes (depth + 1) rest) :
      Closes depth ('{' :: rest)
  | closing {depth : Nat} {rest : List Char} (later : Closes depth rest) :
      Closes (depth + 1) ('}' :: rest)

theorem isPlain_of_class (among : Char → Bool) {char : Char} (member : among char = true)
    (outside : among '\\' = false ∧ among '{' = false ∧ among '}' = false) : IsPlain char := by
  refine ⟨?_, ?_, ?_⟩ <;> rintro rfl <;> simp [outside] at member

namespace Closes

theorem of_plain {depth : Nat} {char : Char} {rest : List Char} (plain : IsPlain char)
    (closes : Closes depth (char :: rest)) : Closes depth rest := by
  cases closes with
  | plain _ later => exact later
  | guarded => exact absurd rfl plain.1
  | opening => exact absurd rfl plain.2.1
  | closing => exact absurd rfl plain.2.2

theorem of_run {depth : Nat} {run rest : List Char} (plain : ∀ char ∈ run, IsPlain char)
    (closes : Closes depth (run ++ rest)) : Closes depth rest := by
  induction run with
  | nil => exact closes
  | cons char run ih =>
      rw [List.forall_mem_cons] at plain
      exact ih plain.2 (closes.of_plain plain.1)

theorem of_backslash {depth : Nat} {rest : List Char} (closes : Closes depth ('\\' :: rest)) :
    ∃ char later, rest = char :: later ∧ Closes depth later := by
  cases closes with
  | plain plain _ => exact absurd rfl plain.1
  | guarded char later => exact ⟨char, _, rfl, later⟩

theorem of_opening {depth : Nat} {rest : List Char} (closes : Closes depth ('{' :: rest)) :
    Closes (depth + 1) rest := by
  cases closes with
  | plain plain _ => exact absurd rfl plain.2.1
  | opening later => exact later

theorem of_closing {depth : Nat} {rest : List Char} (closes : Closes depth ('}' :: rest)) :
    ∃ outer, Closes outer rest := by
  cases closes with
  | plain plain _ => exact absurd rfl plain.2.2
  | closing later => exact ⟨_, later⟩

/-- A text that closes more than `depth` braces has a part that closes those, up to the brace that
closes one more. -/
theorem exists_split {depth outer : Nat} {text : List Char}
    (closes : Closes (depth + 1 + outer) text) :
    ∃ argument rest, text = argument ++ '}' :: rest ∧ Closes depth argument ∧
      Closes outer rest := by
  generalize total : depth + 1 + outer = sum at closes
  induction closes generalizing depth with
  | nil => omega
  | @plain _ char _ plain _ ih =>
      obtain ⟨argument, rest, rfl, inner, later⟩ := ih total
      exact ⟨char :: argument, rest, rfl, .plain plain inner, later⟩
  | guarded char _ ih =>
      obtain ⟨argument, rest, rfl, inner, later⟩ := ih total
      exact ⟨'\\' :: char :: argument, rest, rfl, .guarded char inner, later⟩
  | @opening inside _ _ ih =>
      have deeper : depth + 1 + 1 + outer = inside + 1 := by omega
      obtain ⟨argument, rest, rfl, inner, later⟩ := ih deeper
      exact ⟨'{' :: argument, rest, rfl, .opening inner, later⟩
  | @closing inside rest later ih =>
      cases depth with
      | zero =>
          have same : inside = outer := by omega
          exact ⟨[], rest, rfl, .nil, same ▸ later⟩
      | succ depth =>
          have shallower : depth + 1 + outer = inside := by omega
          obtain ⟨argument, rest, rfl, inner, later⟩ := ih shallower
          exact ⟨'}' :: argument, rest, rfl, .closing inner, later⟩

/-- A text that closes its braces, and then closes one more before another such text. -/
theorem append_closing {depth outer sum : Nat} {argument rest : List Char}
    (closes : Closes depth argument) (later : Closes outer rest) (total : sum = depth + 1 + outer) :
    Closes sum (argument ++ '}' :: rest) := by
  induction closes generalizing sum with
  | nil =>
      have same : sum = outer + 1 := by omega
      exact same ▸ .closing later
  | plain plain _ ih => exact .plain plain (ih total)
  | guarded char _ ih => exact .guarded char (ih total)
  | opening _ ih => exact .opening (ih (by omega))
  | @closing inside _ _ ih =>
      have same : sum = inside + 1 + outer + 1 := by omega
      exact same ▸ .closing (ih rfl)

theorem splitArgument_eq {depth : Nat} {argument : List Char} (closes : Closes depth argument)
    (rest : List Char) :
    splitArgument depth (argument ++ '}' :: rest) = some (argument, rest) := by
  induction closes with
  | nil => simp [splitArgument]
  | plain plain _ ih =>
      simp [splitArgument, plain.1, plain.2.1, plain.2.2, ih]
  | guarded char _ ih => simp [splitArgument, ih]
  | opening _ ih => simp [splitArgument, ih]
  | closing _ ih => simp [splitArgument, ih]

end Closes

theorem closes_of_splitArgument {depth : Nat} {text argument rest : List Char}
    (split : splitArgument depth text = some (argument, rest)) : Closes depth argument := by
  fun_induction splitArgument depth text generalizing argument rest with
  | case1 => simp at split
  | case2 => simp at split
  | case3 depth char text ih =>
      obtain ⟨⟨inner, after⟩, found, same⟩ := Option.map_eq_some_iff.mp split
      cases same
      exact .guarded char (ih found)
  | case4 depth text ih =>
      obtain ⟨⟨inner, after⟩, found, same⟩ := Option.map_eq_some_iff.mp split
      cases same
      exact .opening (ih found)
  | case5 text =>
      cases split
      exact .nil
  | case6 depth text ih =>
      obtain ⟨⟨inner, after⟩, found, same⟩ := Option.map_eq_some_iff.mp split
      cases same
      exact .closing (ih found)
  | case7 depth char text lone pair opening innermost outer ih =>
      obtain ⟨⟨inner, after⟩, found, same⟩ := Option.map_eq_some_iff.mp split
      cases same
      refine .plain ⟨fun same => ?_, opening, fun same => ?_⟩ (ih found)
      · cases text with
        | nil => exact lone same rfl
        | cons next text => exact pair next text same rfl
      · cases depth with
        | zero => exact innermost rfl same
        | succ depth => exact outer depth rfl same

/-- An argument is split off exactly if its braces close before the brace behind it. -/
theorem splitArgument_eq_some_iff {depth : Nat} {text argument rest : List Char} :
    splitArgument depth text = some (argument, rest) ↔
      text = argument ++ '}' :: rest ∧ Closes depth argument := by
  constructor
  · intro split
    exact ⟨eq_append_of_splitArgument split, closes_of_splitArgument split⟩
  · rintro ⟨rfl, closes⟩
    exact closes.splitArgument_eq rest

/-! ## Lexemes of such texts -/

theorem LineEnd.isPlain_of_mem_spelling {lineEnd : LineEnd} {char : Char}
    (member : char ∈ lineEnd.spelling) : IsPlain char := by
  refine isPlain_of_class (fun char => char = '\r' || char = '\n') ?_ (by decide)
  cases lineEnd <;> simp_all [LineEnd.spelling]

namespace Closes

/-- What follows a command with its argument closes the braces that the command stands in. -/
theorem of_command {depth : Nat} {argument rest : List Char}
    (closes : Closes (depth + 1) (argument ++ '}' :: rest))
    (split : splitArgument 0 (argument ++ '}' :: rest) = some (argument, rest)) :
    Closes depth rest := by
  rw [Nat.add_comm, ← Nat.zero_add 1] at closes
  obtain ⟨other, later, same, inner, outer⟩ := closes.exists_split
  rw [same, inner.splitArgument_eq] at split
  obtain ⟨-, rfl⟩ := Prod.mk.inj (Option.some.inj split)
  exact outer

theorem splitArgument_ne_none {depth : Nat} {text : List Char} (closes : Closes (depth + 1) text) :
    splitArgument 0 text ≠ none := by
  rw [Nat.add_comm, ← Nat.zero_add 1] at closes
  obtain ⟨argument, rest, rfl, inner, -⟩ := closes.exists_split
  rw [inner.splitArgument_eq]
  exact Option.some_ne_none _

theorem of_name {depth : Nat} {name rest : List Char} (inhabited : name ≠ [])
    (letters : ∀ char ∈ name, isLetter char) (closes : Closes depth ('\\' :: name ++ rest)) :
    Closes depth rest := by
  obtain ⟨first, name, rfl⟩ := List.exists_cons_of_ne_nil inhabited
  obtain ⟨char, later, same, closes⟩ := closes.of_backslash
  obtain ⟨rfl, rfl⟩ := List.cons.inj same
  rw [List.forall_mem_cons] at letters
  exact closes.of_run fun char member =>
    isPlain_of_class isLetter (letters.2 char member) (by decide)

/-- **One step.** A lexeme that is cut off a text that closes its braces leaves such a text, with
more or fewer braces open before it. It lacks no closing brace, and no backslash stands alone at the
end. -/
theorem of_cut {depth : Nat} {unit : Lexeme} {rest : List Char} (cut : unit.CutBefore rest)
    (closes : Closes depth (unit.spelling ++ rest)) :
    (∃ left, Closes left rest) ∧ (∀ name later, unit ≠ .unclosed name later) ∧
      (unit = .stray '\\' → rest ≠ []) := by
  cases cut with
  | blank _ blanks =>
      have plain := fun char member => isPlain_of_class isBlank (blanks char member) (by decide)
      exact ⟨⟨depth, closes.of_run plain⟩, by simp, by simp⟩
  | lineBreak =>
      exact ⟨⟨depth, closes.of_run fun _ => LineEnd.isPlain_of_mem_spelling⟩, by simp, by simp⟩
  | paragraphBreak first second more =>
      have plain : ∀ char ∈ (Lexeme.paragraphBreak first second more).spelling,
          IsPlain char := by
        intro char member
        simp only [Lexeme.spelling, List.mem_append, List.mem_flatMap] at member
        rcases member with (member | member) | ⟨_, _, member⟩ <;>
          exact LineEnd.isPlain_of_mem_spelling member
      exact ⟨⟨depth, closes.of_run plain⟩, by simp, by simp⟩
  | escaped =>
      obtain ⟨_, _, same, later⟩ := closes.of_backslash
      obtain ⟨-, rfl⟩ := List.cons.inj same
      exact ⟨⟨depth, later⟩, by simp, by simp⟩
  | bareCommand inhabited letters =>
      exact ⟨⟨depth, closes.of_name inhabited letters⟩, by simp, by simp⟩
  | @command name argument _ inhabited letters split =>
      have whole : (Lexeme.command name (some argument)).spelling ++ rest =
          '\\' :: name ++ '{' :: (argument ++ '}' :: rest) := by simp [Lexeme.spelling]
      rw [whole] at closes
      have inside := (closes.of_name inhabited letters).of_opening
      exact ⟨⟨depth, inside.of_command split⟩, by simp, by simp⟩
  | unclosed inhabited letters unmatched =>
      rw [List.append_nil] at closes
      have inside := (closes.of_name inhabited letters).of_opening
      exact absurd unmatched inside.splitArgument_ne_none
  | @text run _ _ ordinary =>
      have plain : ∀ char ∈ run, IsPlain char := fun char member =>
        isPlain_of_class (fun char => !isSpecial char) (by simp [ordinary char member])
          (by decide)
      exact ⟨⟨depth, closes.of_run plain⟩, by simp, by simp⟩
  | backslash stops =>
      obtain ⟨char, later, rfl, inside⟩ := closes.of_backslash
      have stopped := stops char rfl
      rw [Bool.or_eq_false_iff] at stopped
      have plain : IsPlain char :=
        isPlain_of_class (fun char => !isEscapable char) (by simp [stopped.1]) (by decide)
      exact ⟨⟨depth, .plain plain inside⟩, by simp, by simp⟩
  | brace brace =>
      rcases brace with rfl | rfl
      · exact ⟨⟨depth + 1, closes.of_opening⟩, by simp, by simp⟩
      · exact ⟨closes.of_closing, by simp, by simp⟩
  | carriageReturn =>
      exact ⟨⟨depth, closes.of_plain ⟨by decide, by decide, by decide⟩⟩, by simp, by simp⟩

/-- **All steps.** Wherever the lexemes of a text that closes its braces are split, the later ones
spell such a text. -/
theorem of_lexemes_eq {depth : Nat} {text : List Char} (closes : Closes depth text)
    {before after : List Lexeme} {unit : Lexeme}
    (split : lexemes text = before ++ unit :: after) :
    ∃ left, Closes left (unit.spelling ++ after.flatMap Lexeme.spelling) := by
  induction before generalizing depth text with
  | nil =>
      rw [← flatMap_spelling_lexemes text, split] at closes
      exact ⟨depth, closes⟩
  | cons first before ih =>
      cases text with
      | nil => simp [lexemes] at split
      | cons char rest =>
          rw [lexemes] at split
          rw [← Lexeme.spelling_scan] at closes
          obtain ⟨⟨left, later⟩, -⟩ := closes.of_cut (Lexeme.cutBefore_scan char rest)
          exact ih later (List.cons.inj split).2

end Closes

/-! ## Where a closing brace can lack -/

namespace Reading

/-- A problem that reading shows is one of the script or one of a directive that is followed. -/
theorem problem_of_readWith {follow : Reading → Directive → Reading × Option Problem}
    {reading next : Reading} {script rest : Script} {problem : Problem}
    (read : reading.readWith follow script = (next, some (problem, rest))) :
    .error problem ∈ script ∨
      ∃ (before : Reading) (directive : Directive),
        .ok directive ∈ script ∧ (follow before directive).2 = some problem := by
  induction script generalizing reading with
  | nil => simp [readWith] at read
  | cons entry script ih =>
      cases entry with
      | error found =>
          rw [readWith] at read
          cases read
          exact Or.inl List.mem_cons_self
      | ok directive =>
          rw [readWith] at read
          split at read
          · rcases ih read with shown | ⟨before, later, member, followed⟩
            · exact Or.inl (List.mem_cons_of_mem _ shown)
            · exact Or.inr ⟨before, later, List.mem_cons_of_mem _ member, followed⟩
          · rename_i found followed
            cases read
            exact Or.inr ⟨reading, directive, List.mem_cons_self, by rw [followed]⟩

theorem obey_ne_unterminated (reading : Reading) (directive : Directive) (command : Piece) :
    (reading.obey directive).2 ≠ some (.unterminatedArgument command) := by
  cases directive with
  | measure kind value name argument =>
      rw [obey]
      split <;> simp
  | _ => simp [obey]

theorem problem_of_readNote {reading : Reading} {body : List Token} {problem : Problem}
    (shown : (reading.readNote body).2 = some problem) :
    ∃ (opened next : Reading) (rest : Script),
      opened.readWith obey (.ofTokens body) = (next, some (problem, rest)) := by
  simp only [readNote] at shown
  split at shown
  · rename_i next found rest read
    cases shown
    exact ⟨_, next, rest, read⟩
  · simp at shown

/-- A directive that is followed shows that a closing brace lacks only if it does in an endnote. -/
theorem exists_note_of_unterminated {reading : Reading} {directive : Directive} {command : Piece}
    (shown : (reading.follow directive).2 = some (.unterminatedArgument command)) :
    ∃ name body, directive = .note name body ∧
      ∃ inner ∈ body, inner.directive = .error (.unterminatedArgument command) := by
  rcases directive.note_or_plain with ⟨name, body, rfl⟩ | plain
  · refine ⟨name, body, rfl, ?_⟩
    unfold follow at shown
    cases mode : reading.document.mode with
    | normal =>
        simp only [mode] at shown
        obtain ⟨opened, next, rest, read⟩ := problem_of_readNote shown
        rcases problem_of_readWith read with shown | ⟨before, later, -, obeyed⟩
        · exact List.mem_map.mp shown
        · exact absurd obeyed (obey_ne_unterminated before later command)
    | endnote =>
        simp only [mode] at shown
        exact absurd shown (obey_ne_unterminated reading _ command)
  · rw [reading.follow_of_plain plain] at shown
    exact absurd shown (obey_ne_unterminated reading directive command)

end Reading

theorem Session.read_of_problem {σ : Type} [Sink σ] {session : Session σ} {reader : Reader}
    {problem : Problem} (failed : (session.read reader).2.2 = .error (.document problem)) :
    ∃ (opened next : Reading) (rest : Script),
      opened.read reader.rest = (next, some (problem, rest)) := by
  simp only [read] at failed
  split at failed
  · rename_i next found rest shown
    cases failed
    exact ⟨_, next, rest, shown⟩
  · dsimp only at failed
    split at failed <;> simp at failed

namespace Piece

/-- The braces of an argument close. -/
theorem closes_of_command {piece : Piece} {token : Token} {name text : List Char}
    (member : token ∈ piece.tokens) (command : token.lexeme = .command name (some text)) :
    Closes 0 text := by
  obtain ⟨before, after, split⟩ := List.append_of_mem member
  obtain ⟨-, -, cut⟩ := split_tokens split
  rw [command] at cut
  cases cut with
  | command _ _ split => exact closes_of_splitArgument split

/-- No command lacks its closing brace among the tokens of a text whose braces close, and the last
of them is no stray backslash. -/
theorem tokens_of_closes {depth : Nat} {piece : Piece} (closes : Closes depth piece.text) :
    (∀ token ∈ piece.tokens, ∀ command,
      token.directive ≠ .error (.unterminatedArgument command)) ∧
    ∀ before last, piece.tokens = before ++ [last] → last.lexeme ≠ .stray '\\' := by
  have step {before after : List Token} {token : Token}
      (split : piece.tokens = before ++ token :: after) :
      (∀ name later, token.lexeme ≠ .unclosed name later) ∧
        (token.lexeme = .stray '\\' → Token.spelled after ≠ []) := by
    obtain ⟨-, -, cut⟩ := split_tokens split
    obtain ⟨left, later⟩ := closes.of_lexemes_eq (lexemes_eq_of_split split)
    rw [← Token.spelled_eq] at later
    exact (later.of_cut cut).2
  constructor
  · intro token member command asked
    obtain ⟨before, after, split⟩ := List.append_of_mem member
    obtain ⟨name, later, unclosed, -⟩ := Token.directive_eq_unterminated asked
    exact (step split).1 name later unclosed
  · intro before last split stray
    exact (step split).2 stray rfl

end Piece

/-- **Arguments are closed.** However deep an argument stands, no command among its tokens lacks its
closing brace, and they do not end with a stray backslash. So whatever is read of a source, and in
whichever session, a command that is reported to lack that brace is one of the source itself. -/
theorem arguments_are_closed (source : List Char) :
    (∀ (piece : Piece) (token : Token) (name text : List Char), piece.Lexed source →
      token ∈ piece.tokens → token.lexeme = .command name (some text) →
        (∀ inner ∈ (Token.argumentPiece token.start name text).tokens, ∀ command,
          inner.directive ≠ .error (.unterminatedArgument command)) ∧
        ∀ before last, (Token.argumentPiece token.start name text).tokens = before ++ [last] →
          last.lexeme ≠ .stray '\\') ∧
    ∀ {σ : Type} [Sink σ] (session : Session σ) (reader : Reader) (command : Piece),
      reader.rest <:+ Script.ofTokens (tokens source) →
      (session.read reader).2.2 = .error (.document (.unterminatedArgument command)) →
        ∃ token ∈ tokens source, token.directive = .error (.unterminatedArgument command) := by
  have closed {piece : Piece} {token : Token} {name text : List Char}
      (member : token ∈ piece.tokens) (unit : token.lexeme = .command name (some text)) :
      Closes 0 (Token.argumentPiece token.start name text).text :=
    Piece.closes_of_command member unit
  refine ⟨fun piece token name text _ member unit =>
    Piece.tokens_of_closes (closed member unit), ?_⟩
  intro σ sink session reader command partly failed
  obtain ⟨opened, next, rest, read⟩ := Session.read_of_problem failed
  rcases Reading.problem_of_readWith read with shown | ⟨before, directive, asked, followed⟩
  · exact List.mem_map.mp (partly.subset shown)
  · obtain ⟨name, body, rfl, inner, inside, lacks⟩ := Reading.exists_note_of_unterminated followed
    obtain ⟨token, member, noted⟩ := List.mem_map.mp (partly.subset asked)
    obtain ⟨text, unit, -, rfl⟩ := Token.of_directive_eq_note noted
    exact absurd lacks ((Piece.tokens_of_closes (closed member unit)).1 inner inside command)

/-- A document with a command in an endnote and then a command whose argument is not closed. -/
theorem arguments_are_closed_in_note :
    let source := "\\endnote\x7b\\bold\x7bx\x7d\x7d\\fill\x7by".toList
    (∀ inner ∈ (Token.argumentPiece 9 "bold".toList ['x']).tokens, ∀ command,
      inner.directive ≠ .error (.unterminatedArgument command)) ∧
    ∃ token ∈ tokens source,
      token.directive = .error (.unterminatedArgument ⟨"\\fill\x7b".toList, 18⟩) := by
  intro source
  let note : Token := ⟨0, .command "endnote".toList (some "\\bold\x7bx\x7d".toList)⟩
  let bold : Token := ⟨9, .command "bold".toList (some ['x'])⟩
  have outer : note ∈ Piece.tokens ⟨source, 0⟩ := by decide +kernel
  have inner : bold ∈
      (Token.argumentPiece 0 "endnote".toList "\\bold\x7bx\x7d".toList).tokens := by
    decide +kernel
  have failed : ((Session.new .default (Collector.new none)).read (.new source)).2.2 =
      .error (.document (.unterminatedArgument ⟨"\\fill\x7b".toList, 18⟩)) := by decide +kernel
  have lexed := Piece.Lexed.argument .document outer rfl
  exact ⟨((arguments_are_closed source).1 _ bold _ _ lexed inner rfl).1,
    (arguments_are_closed source).2 _ _ _ (List.suffix_refl _) failed⟩

end Galley
