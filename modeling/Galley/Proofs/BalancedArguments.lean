import Galley.Proofs.LocalTokens

/-! # Arguments are balanced texts

The argument of a command is read in one pass that counts open braces. What it accepts is a grammar:
a text is balanced if it is made of plain characters, guarded characters and balanced groups in
braces (`Galley.Balanced`). Main statement: behind the brace that opens an argument, at most one
balanced text stands before a closing brace; that text is the argument, and where there is none the
argument is reported to lack its brace (`Galley.arguments_are_balanced`).
-/

namespace Galley

/-- The texts with balanced braces: items one behind the other, each of them a character that is no
backslash and no brace, a backslash with the character behind it, or a balanced text in braces. -/
inductive Balanced : List Char → Prop
  | nil : Balanced []
  | plain {char : Char} {rest : List Char} (plain : IsPlain char) (later : Balanced rest) :
      Balanced (char :: rest)
  | guarded (char : Char) {rest : List Char} (later : Balanced rest) :
      Balanced ('\\' :: char :: rest)
  | group {inner rest : List Char} (inside : Balanced inner) (later : Balanced rest) :
      Balanced ('{' :: (inner ++ '}' :: rest))

/-! ## The grammar and the count -/

theorem Balanced.closes {text : List Char} (balanced : Balanced text) : Closes 0 text := by
  induction balanced with
  | nil => exact .nil
  | plain plain _ later => exact .plain plain later
  | guarded char _ later => exact .guarded char later
  | group _ _ inside later => exact .opening (inside.append_closing later rfl)

theorem Closes.balanced {text : List Char} (closes : Closes 0 text) : Balanced text := by
  cases closes with
  | nil => exact .nil
  | plain plain later => exact .plain plain later.balanced
  | guarded char later => exact .guarded char later.balanced
  | opening later =>
      have one : Closes (0 + 1 + 0) _ := later
      obtain ⟨inner, rest, rfl, inside, behind⟩ := one.exists_split
      exact .group inside.balanced behind.balanced
termination_by text.length
decreasing_by all_goals (simp_all only [List.length_cons, List.length_append]; omega)

/-- **The count accepts the grammar.** With no brace open, the braces of a text close exactly if it
is balanced. -/
theorem closes_iff_balanced {text : List Char} : Closes 0 text ↔ Balanced text :=
  ⟨Closes.balanced, Balanced.closes⟩

theorem splitArgument_eq_some_iff_balanced {text argument rest : List Char} :
    splitArgument 0 text = some (argument, rest) ↔
      Balanced argument ∧ text = argument ++ '}' :: rest := by
  rw [splitArgument_eq_some_iff, closes_iff_balanced, and_comm]

theorem splitArgument_eq_none_iff_balanced {text : List Char} :
    splitArgument 0 text = none ↔
      ∀ argument rest, Balanced argument → text ≠ argument ++ '}' :: rest := by
  rw [Option.eq_none_iff_forall_ne_some, Prod.forall]
  simp only [ne_eq, splitArgument_eq_some_iff_balanced, not_and]

/-! ## Commands with an opening brace -/

theorem Piece.tokens_of_cutBefore {unit : Lexeme} {rest : List Char} (cut : unit.CutBefore rest)
    (start : Nat) :
    tokens ⟨unit.spelling ++ rest, start⟩ =
      ⟨start, unit⟩ :: tokens ⟨rest, start + byteLength unit.spelling⟩ := by
  rw [tokens, lexemes_append cut]
  rfl

/-- What becomes of a token that starts with the name of a command and a brace, with a text behind
the brace up to the end of the piece that is read. At most one balanced text stands there before a
closing brace. If one does, it is the argument, and what follows is read from behind that brace on;
if none does, the error is about all from the backslash through the opening brace, and no token
follows. -/
structure Token.ReadsArgument (source : List Char) (piece : Piece) (token : Token)
    (after : List Token) (name text : List Char) : Prop where
  accepts : ∀ argument rest, splitArgument 0 text = some (argument, rest) ↔
    Balanced argument ∧ text = argument ++ '}' :: rest
  unique : ∀ first firstRest second secondRest,
    Balanced first → text = first ++ '}' :: firstRest →
      Balanced second → text = second ++ '}' :: secondRest →
        first = second ∧ firstRest = secondRest
  closed : ∀ argument rest, Balanced argument → text = argument ++ '}' :: rest →
    token.lexeme = .command name (some argument) ∧
      (argumentPiece token.start name argument).LiesIn source ∧
      after = Piece.tokens ⟨rest, (argumentPiece token.start name argument).stop + 1⟩
  unclosed : (∀ argument rest, Balanced argument → text ≠ argument ++ '}' :: rest) →
    token.directive = .error (.unterminatedArgument (openingPiece token.start name)) ∧
      (openingPiece token.start name).LiesIn source ∧ after = [] ∧ token.piece.stop = piece.stop

section Opening

variable {source : List Char} {piece : Piece} {before after : List Token} {token : Token}
  {name text : List Char}

theorem Piece.tokens_of_suffix (split : piece.tokens = before ++ token :: after) :
    tokens ⟨Token.spelled (token :: after), token.start⟩ = token :: after := by
  obtain ⟨start, -, -⟩ := split_tokens split
  rw [start]
  exact (tokens_of_split split).2

theorem Piece.reads_closed (lies : piece.LiesIn source)
    (split : piece.tokens = before ++ token :: after) (inhabited : name ≠ [])
    (letters : ∀ char ∈ name, isLetter char)
    (opens : Token.spelled (token :: after) = '\\' :: name ++ '{' :: text)
    {argument rest : List Char} (closed : splitArgument 0 text = some (argument, rest)) :
    token.lexeme = .command name (some argument) ∧
      (Token.argumentPiece token.start name argument).LiesIn source ∧
      after = tokens ⟨rest, (Token.argumentPiece token.start name argument).stop + 1⟩ := by
  obtain rfl := eq_append_of_splitArgument closed
  have cut : (Lexeme.command name (some argument)).CutBefore rest :=
    .command inhabited letters closed
  have whole : Token.spelled (token :: after) =
      (Lexeme.command name (some argument)).spelling ++ rest := by
    simp [opens, Lexeme.spelling]
  have read := tokens_of_suffix split
  rw [whole, tokens_of_cutBefore cut] at read
  obtain ⟨first, later⟩ := List.cons.inj read
  have command : token.lexeme = .command name (some argument) := by rw [← first]
  have parts : token.piece.text = ('\\' :: name ++ ['{']) ++ argument ++ ['}'] := by
    rw [Token.piece, command]
    simp [Lexeme.spelling]
  refine ⟨command, liesIn_of_split lies split _ _ parts rfl, ?_⟩
  have stop : token.start + byteLength (Lexeme.command name (some argument)).spelling =
      (Token.argumentPiece token.start name argument).stop + 1 := by
    have brace : byteLength ['}'] = 1 := by decide
    rw [Token.stop_argumentPiece, Nat.add_assoc, ← brace, ← byteLength_append]
    simp [Lexeme.spelling]
  rw [← later, stop]

theorem Piece.reads_unclosed (lies : piece.LiesIn source)
    (split : piece.tokens = before ++ token :: after) (inhabited : name ≠ [])
    (letters : ∀ char ∈ name, isLetter char)
    (opens : Token.spelled (token :: after) = '\\' :: name ++ '{' :: text)
    (unmatched : splitArgument 0 text = none) :
    token.directive = .error (.unterminatedArgument (Token.openingPiece token.start name)) ∧
      (Token.openingPiece token.start name).LiesIn source ∧ after = [] ∧
      token.piece.stop = piece.stop := by
  have cut : (Lexeme.unclosed name text).CutBefore [] := .unclosed inhabited letters unmatched
  have whole : Token.spelled (token :: after) = (Lexeme.unclosed name text).spelling ++ [] := by
    rw [opens, List.append_nil]
    rfl
  have read := tokens_of_suffix split
  rw [whole, tokens_of_cutBefore cut, tokens_nil] at read
  obtain ⟨first, rfl⟩ := List.cons.inj read
  have unclosed : token.lexeme = .unclosed name text := by rw [← first]
  have parts : token.piece.text = [] ++ ('\\' :: name ++ ['{']) ++ text := by
    rw [Token.piece, unclosed]
    simp [Lexeme.spelling]
  refine ⟨?_, liesIn_of_split lies split _ _ parts rfl, rfl, ?_⟩
  · rw [Token.directive, unclosed]
  · have tiles := tiles_tokens piece
    rw [split] at tiles
    obtain ⟨-, -, last⟩ := tiles.split
    exact last.eq_of_nil

/-- **Arguments are balanced.** Wherever in a document, or in a piece of it, a command and a brace
are read, with a text behind them up to the end of the piece: the argument is the balanced text that
stands there before a closing brace, of which there is at most one, and reading goes on behind that
brace; if there is none, the argument is reported to lack its brace, and reading is at its end. -/
theorem arguments_are_balanced (lies : piece.LiesIn source)
    (split : piece.tokens = before ++ token :: after) (inhabited : name ≠ [])
    (letters : ∀ char ∈ name, isLetter char)
    (opens : Token.spelled (token :: after) = '\\' :: name ++ '{' :: text) :
    token.ReadsArgument source piece after name text where
  accepts argument rest := splitArgument_eq_some_iff_balanced
  unique first firstRest second secondRest one splitOne other splitOther := by
    have accepted := splitArgument_eq_some_iff_balanced.mpr ⟨one, splitOne⟩
    rw [splitArgument_eq_some_iff_balanced.mpr ⟨other, splitOther⟩] at accepted
    obtain ⟨rfl, rfl⟩ := Prod.mk.inj (Option.some.inj accepted)
    exact ⟨rfl, rfl⟩
  closed argument rest balanced ends :=
    Piece.reads_closed lies split inhabited letters opens
      (splitArgument_eq_some_iff_balanced.mpr ⟨balanced, ends⟩)
  unclosed none :=
    Piece.reads_unclosed lies split inhabited letters opens
      (splitArgument_eq_none_iff_balanced.mpr none)

end Opening

/-- A command whose argument holds a group, guarded characters and characters of two bytes, and
behind it one with a lone backslash where its argument should end. -/
theorem arguments_are_balanced_guarded :
    let source := "é\\a\x7b\\\x7b\x7bé\x7d\\é\x7d \\b\x7b\\".toList
    let first : Token := ⟨2, .command ['a'] (some "\\\x7b\x7bé\x7d\\é".toList)⟩
    let second : Token := ⟨16, .unclosed ['b'] ['\\']⟩
    (first.ReadsArgument source ⟨source, 0⟩ [⟨15, .blank [' ']⟩, second] ['a']
        "\\\x7b\x7bé\x7d\\é\x7d \\b\x7b\\".toList ∧
      Balanced "\\\x7b\x7bé\x7d\\é".toList) ∧
    second.ReadsArgument source ⟨source, 0⟩ [] ['b'] ['\\'] ∧
      second.directive = .error (.unterminatedArgument ⟨"\\b\x7b".toList, 16⟩) := by
  intro source first second
  have lies : Piece.LiesIn ⟨source, 0⟩ source :=
    Piece.liesIn_iff.mpr ⟨[], [], (List.append_nil source).symm, rfl⟩
  have splitFirst : Piece.tokens ⟨source, 0⟩ =
      [⟨0, .text ['é']⟩] ++ first :: [⟨15, .blank [' ']⟩, second] := by decide +kernel
  have splitSecond : Piece.tokens ⟨source, 0⟩ =
      [⟨0, .text ['é']⟩, first, ⟨15, .blank [' ']⟩] ++ second :: [] := by decide +kernel
  have letter {char : Char} (alphabetic : isLetter char) : ∀ other ∈ [char], isLetter other :=
    List.forall_mem_singleton.mpr alphabetic
  have one : first.ReadsArgument source ⟨source, 0⟩ [⟨15, .blank [' ']⟩, second] ['a']
      "\\\x7b\x7bé\x7d\\é\x7d \\b\x7b\\".toList :=
    arguments_are_balanced lies splitFirst (List.cons_ne_nil _ _) (letter rfl) (by decide +kernel)
  have other : second.ReadsArgument source ⟨source, 0⟩ [] ['b'] ['\\'] :=
    arguments_are_balanced lies splitSecond (List.cons_ne_nil _ _) (letter rfl) (by decide +kernel)
  have closed : splitArgument 0 "\\\x7b\x7bé\x7d\\é\x7d \\b\x7b\\".toList =
      some ("\\\x7b\x7bé\x7d\\é".toList, " \\b\x7b\\".toList) := by decide +kernel
  have lone : splitArgument 0 ['\\'] = none := by decide +kernel
  exact ⟨⟨one, ((one.accepts _ _).mp closed).1⟩, other,
    (other.unclosed (splitArgument_eq_none_iff_balanced.mp lone)).1⟩

end Galley
