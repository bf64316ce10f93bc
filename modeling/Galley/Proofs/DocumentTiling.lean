import Galley.Markup.Directive
import Galley.Proofs.ByteRanges
import Galley.Proofs.ScannedLexemes

/-! # Tokens tile the document

The tokens of a document, and to any depth those of the arguments of its commands, lie end to end in
the piece that they are read from, and each of them and of their parts can be cut out of the
document. Main statement: `Galley.Piece.tiled_of_lexed`.
-/

namespace Galley

/-! ## Tokens in their piece -/

namespace Token

/-- The text that tokens stand for. -/
def spelled (tokens : List Token) : List Char :=
  tokens.flatMap fun token => token.piece.text

theorem spelled_eq (tokens : List Token) :
    spelled tokens = (tokens.map lexeme).flatMap Lexeme.spelling := by
  rw [spelled, List.flatMap_map]
  rfl

theorem place_eq_append {start : Nat} {units : List Lexeme} {before after : List Token}
    {token : Token} (split : place start units = before ++ token :: after) :
    token.start = start + byteLength (spelled before) := by
  induction before generalizing start units with
  | nil =>
      cases units with
      | nil => simp [place] at split
      | cons unit units =>
          rw [place] at split
          obtain ⟨rfl, -⟩ := List.cons.inj split
          rfl
  | cons first before ih =>
      cases units with
      | nil => simp [place] at split
      | cons unit units =>
          rw [place] at split
          obtain ⟨rfl, later⟩ := List.cons.inj split
          rw [ih later, spelled, spelled, List.flatMap_cons, byteLength_append, Nat.add_assoc]
          rfl

theorem Tiles.split {start stop : Nat} {before after : List Token} {token : Token}
    (tiles : Tiles start stop (before ++ token :: after)) :
    Tiles start token.start before ∧ token.piece.text ≠ [] ∧ Tiles token.piece.stop stop after := by
  induction before generalizing start with
  | nil =>
      cases tiles with
      | cons inhabited tail => exact ⟨.nil _, inhabited, tail⟩
  | cons first before ih =>
      cases tiles with
      | cons inhabited tail =>
          obtain ⟨earlier, rest⟩ := ih tail
          exact ⟨.cons inhabited earlier, rest⟩

theorem Tiles.length_le {start stop : Nat} {tokens : List Token} (tiles : Tiles start stop tokens) :
    tokens.length ≤ (spelled tokens).length := by
  induction tiles with
  | nil => exact Nat.le_refl 0
  | cons inhabited tail ih =>
      have positive := List.length_pos_iff.mpr inhabited
      rw [spelled, List.flatMap_cons, List.length_append, List.length_cons, ← spelled]
      omega

end Token

namespace Piece

theorem lexemes_eq_of_split {piece : Piece} {before after : List Token} {token : Token}
    (split : piece.tokens = before ++ token :: after) :
    lexemes piece.text =
      before.map Token.lexeme ++ token.lexeme :: after.map Token.lexeme := by
  rw [← List.map_cons, ← List.map_append, ← split, tokens, Token.map_lexeme_place]

/-- A token of a piece starts behind the tokens before it, the texts of all tokens make up the
piece, and the lexeme of the token is cut off before the texts of those after it. -/
theorem split_tokens {piece : Piece} {before after : List Token} {token : Token}
    (split : piece.tokens = before ++ token :: after) :
    token.start = piece.start + byteLength (Token.spelled before) ∧
      piece.text = Token.spelled before ++ token.piece.text ++ Token.spelled after ∧
      token.lexeme.CutBefore (Token.spelled after) := by
  refine ⟨Token.place_eq_append split, ?_, ?_⟩
  · have whole := piece.flatMap_text_tokens
    rw [split, List.flatMap_append, List.flatMap_cons, ← List.append_assoc] at whole
    exact whole.symm
  · rw [Token.spelled_eq]
    exact cutBefore_of_lexemes_eq (lexemes_eq_of_split split)

end Piece

/-- The pieces of a document that are cut into tokens: the document itself and, to any depth, the
argument of each command. -/
inductive Piece.Lexed (source : List Char) : Piece → Prop
  | document : Lexed source ⟨source, 0⟩
  | argument {piece : Piece} {token : Token} {name text : List Char} (outer : Lexed source piece)
      (member : token ∈ piece.tokens) (command : token.lexeme = .command name (some text)) :
      Lexed source (Token.argumentPiece token.start name text)

/-! ## Parts of a command -/

namespace Token

theorem stop_namePiece (start : Nat) (name : List Char) :
    (namePiece start name).stop = start + byteLength ('\\' :: name) := by
  rw [Piece.stop, namePiece, Nat.add_assoc, ← byteLength_append]
  rfl

theorem start_argumentPiece (start : Nat) (name argument : List Char) :
    (argumentPiece start name argument).start = start + byteLength ('\\' :: name ++ ['{']) := rfl

theorem stop_argumentPiece (start : Nat) (name argument : List Char) :
    (argumentPiece start name argument).stop =
      start + byteLength ('\\' :: name ++ '{' :: argument) := by
  rw [Piece.stop, start_argumentPiece, Nat.add_assoc, ← byteLength_append, List.append_assoc]
  rfl

/-- How the parts of a command lie in a document: a backslash, then the longest run of letters,
then nothing or a brace, the argument and a brace that ends the command. -/
structure CommandLies (source : List Char) (token : Token) (name : List Char)
    (argument : Option (List Char)) : Prop where
  backslash : Piece.LiesIn ⟨['\\'], token.start⟩ source
  name_start : (namePiece token.start name).start = token.start + 1
  name_lies : (namePiece token.start name).LiesIn source
  command_lies : (commandPiece token.start name).LiesIn source
  inhabited : name ≠ []
  letters : ∀ char ∈ name, isLetter char
  longest : ∀ char, Piece.LiesIn ⟨[char], (namePiece token.start name).stop⟩ source →
    isLetter char = false
  bare : argument = none → token.piece.stop = (namePiece token.start name).stop
  opening : ∀ text ∈ argument, Piece.LiesIn ⟨['{'], (namePiece token.start name).stop⟩ source ∧
    (argumentPiece token.start name text).start = (namePiece token.start name).stop + 1
  argument_lies : ∀ text ∈ argument, (argumentPiece token.start name text).LiesIn source
  closing : ∀ text ∈ argument,
    Piece.LiesIn ⟨['}'], (argumentPiece token.start name text).stop⟩ source ∧
      token.piece.stop = (argumentPiece token.start name text).stop + 1

theorem directive_eq_unterminated {token : Token} {command : Piece}
    (asked : token.directive = .error (.unterminatedArgument command)) :
    ∃ name later,
      token.lexeme = .unclosed name later ∧ command = openingPiece token.start name := by
  obtain ⟨start, unit⟩ := token
  cases unit with
  | unclosed name later =>
      cases asked
      exact ⟨name, later, rfl, rfl⟩
  | command name argument =>
      simp only [directive] at asked
      split at asked
      · simp at asked
      · rename_i known named
        cases known <;> cases argument <;> simp only [commandDirective, Option.map] at asked <;>
          (try split at asked) <;> simp at asked
  | _ => simp [directive] at asked

end Token

/-! ## Neighbours -/

/-- The lexeme is a line break or a paragraph break. -/
inductive Lexeme.IsBreak : Lexeme → Prop
  | line (lineEnd : LineEnd) : IsBreak (.lineBreak lineEnd)
  | paragraph (first second : LineEnd) (more : List LineEnd) :
      IsBreak (.paragraphBreak first second more)

/-- Two lexemes that would have been read as one if the second followed the first. -/
inductive Lexeme.Joins : Lexeme → Lexeme → Prop
  | blanks (first second : List Char) : Joins (.blank first) (.blank second)
  | texts (first second : List Char) : Joins (.text first) (.text second)
  | breaks {first second : Lexeme} (one : first.IsBreak) (other : second.IsBreak) :
      Joins first second

namespace Lexeme

theorem startsWithLineEnd_of_isBreak {unit : Lexeme} (isBreak : unit.IsBreak) (rest : List Char) :
    StartsWithLineEnd (unit.spelling ++ rest) := by
  cases isBreak with
  | line lineEnd => exact ⟨lineEnd, rest, rfl⟩
  | paragraph first second more =>
      refine ⟨first, second.spelling ++ more.flatMap LineEnd.spelling ++ rest, ?_⟩
      simp only [spelling, List.append_assoc]

theorem not_joins_of_cutBefore {first second : Lexeme} {rest : List Char}
    (one : first.CutBefore (second.spelling ++ rest)) (other : second.CutBefore rest) :
    ¬first.Joins second := by
  intro joins
  cases joins with
  | blanks =>
      cases other with
      | blank inhabited blanks =>
          obtain ⟨char, run, rfl⟩ := List.exists_cons_of_ne_nil inhabited
          cases one with
          | blank _ _ stops =>
              have stopped := stops char rfl
              simp [blanks char List.mem_cons_self] at stopped
  | texts =>
      cases other with
      | text inhabited ordinary =>
          obtain ⟨char, run, rfl⟩ := List.exists_cons_of_ne_nil inhabited
          cases one with
          | text _ _ stops =>
              have stopped := stops char rfl
              simp [ordinary char List.mem_cons_self] at stopped
  | breaks first second =>
      have starts := startsWithLineEnd_of_isBreak second rest
      cases first with
      | line =>
          cases one with
          | lineBreak _ stops => exact stops starts
      | paragraph =>
          cases one with
          | paragraphBreak _ _ _ stops => exact stops starts

/-- The name of a command is the longest run of letters, if no letter follows the text that the
command is read from. -/
theorem stopsRun_after_name {name rest outer : List Char} {argument : Option (List Char)}
    (cut : (command name argument).CutBefore rest) (stops : StopsRun isLetter outer) :
    name ≠ [] ∧ (∀ char ∈ name, isLetter char) ∧
      ∃ tail, (command name argument).spelling = '\\' :: name ++ tail ∧
        StopsRun isLetter (tail ++ (rest ++ outer)) := by
  cases cut with
  | bareCommand inhabited letters ends =>
      refine ⟨inhabited, letters, [], (List.append_nil _).symm, fun char first => ?_⟩
      cases rest with
      | nil => exact stops char first
      | cons next rest =>
          have ended := ends char first
          rw [Bool.or_eq_false_iff] at ended
          exact ended.1
  | @command name argument rest inhabited letters =>
      refine ⟨inhabited, letters, '{' :: argument ++ ['}'], by simp [spelling], ?_⟩
      intro char first
      cases Option.some.inj first
      decide

end Lexeme

/-! ## The tiling -/

/-- How the tokens of a piece tile it. Wherever the piece has been read up to, the rest of it can be
cut out of the document, and so can each token and each part of a command. The tokens lie end to
end, none is empty, and only the last can lack the brace that closes its argument. -/
structure Piece.Tiled (source : List Char) (piece : Piece) : Prop where
  rest_lies : ∀ read rest, piece.text = read ++ rest →
    (Span.mk (piece.start + byteLength read) piece.stop).slice? source = some rest
  finite : piece.tokens.length ≤ piece.text.length
  tiles : Token.Tiles piece.start piece.stop piece.tokens
  token_lies : ∀ token ∈ piece.tokens,
    token.piece.span.start < token.piece.span.stop ∧ token.piece.LiesIn source
  unterminated : ∀ before token after command, piece.tokens = before ++ token :: after →
    token.directive = .error (.unterminatedArgument command) →
      after = [] ∧ Token.Tiles piece.start command.span.start before ∧ command.LiesIn source
  command_lies : ∀ token ∈ piece.tokens, ∀ name argument,
    token.lexeme = .command name argument → token.CommandLies source name argument
  neighbours : ∀ before first second after, piece.tokens = before ++ first :: second :: after →
    ¬first.lexeme.Joins second.lexeme

namespace Piece

/-- No letter follows a piece that is cut into tokens. -/
theorem liesIn_of_lexed {source : List Char} {piece : Piece} (lexed : piece.Lexed source) :
    ∃ before after, source = before ++ piece.text ++ after ∧ piece.start = byteLength before ∧
      StopsRun isLetter after := by
  induction lexed with
  | document => exact ⟨[], [], by simp, rfl, fun char first => by simp at first⟩
  | @argument piece token name text outer member command ih =>
      obtain ⟨outerBefore, outerAfter, whole, outerStart, -⟩ := ih
      obtain ⟨before, after, split⟩ := List.append_of_mem member
      obtain ⟨start, spelled, -⟩ := split_tokens split
      have spelling : token.piece.text = '\\' :: name ++ '{' :: text ++ ['}'] := by
        rw [Token.piece, command]
        rfl
      refine ⟨outerBefore ++ Token.spelled before ++ ('\\' :: name ++ ['{']),
        '}' :: (Token.spelled after ++ outerAfter), ?_, ?_, fun char first => ?_⟩
      · rw [whole, spelled, spelling]
        simp [Token.argumentPiece]
      · simp only [Token.start_argumentPiece, start, outerStart, byteLength_append]
      · cases Option.some.inj first
        decide

theorem liesIn_of_split {source : List Char} {piece : Piece} (lies : piece.LiesIn source)
    {before after : List Token} {token : Token} (split : piece.tokens = before ++ token :: after)
    (left right : List Char) {text : List Char} (parts : token.piece.text = left ++ text ++ right)
    {start : Nat} (starts : start = token.start + byteLength left) :
    LiesIn ⟨text, start⟩ source := by
  obtain ⟨tokenStart, spelled, -⟩ := split_tokens split
  refine lies.part (Token.spelled before ++ left) (right ++ Token.spelled after) ?_ ?_
  · rw [spelled, parts]
    simp only [List.append_assoc]
  · rw [starts, tokenStart, byteLength_append, Nat.add_assoc]

/-- The parts of a command lie where its name and its argument say. -/
theorem commandLies_of_split {source : List Char} {piece : Piece} (lexed : piece.Lexed source)
    {before after : List Token} {token : Token} (split : piece.tokens = before ++ token :: after)
    {name : List Char} {argument : Option (List Char)}
    (command : token.lexeme = .command name argument) :
    token.CommandLies source name argument := by
  obtain ⟨outerBefore, outerAfter, whole, outerStart, outerStops⟩ := liesIn_of_lexed lexed
  have lies : piece.LiesIn source := liesIn_iff.mpr ⟨_, _, whole, outerStart⟩
  obtain ⟨start, spelled, cut⟩ := split_tokens split
  rw [command] at cut
  obtain ⟨inhabited, letters, tail, spelling, stops⟩ := Lexeme.stopsRun_after_name cut outerStops
  have parts : token.piece.text = '\\' :: name ++ tail := by rw [Token.piece, command, spelling]
  have backslash : byteLength ['\\'] = 1 := by decide
  have brace : byteLength ['{'] = 1 := by decide
  have other : byteLength ['}'] = 1 := by decide
  -- An argument is what the text of the command goes on with.
  have goesOn (text : List Char) (given : text ∈ argument) :
      token.piece.text = '\\' :: name ++ ['{'] ++ text ++ ['}'] := by
    rw [Token.piece, command, Option.mem_def.mp given]
    simp [Lexeme.spelling]
  exact {
    backslash := liesIn_of_split lies split [] (name ++ tail) parts rfl
    name_start := by rw [Token.namePiece, backslash]
    name_lies := liesIn_of_split lies split ['\\'] tail parts rfl
    command_lies := liesIn_of_split lies split [] tail parts rfl
    inhabited := inhabited
    letters := letters
    longest := by
      intro char follows
      refine stops char (head?_eq_of_liesIn follows
        (outerBefore ++ Token.spelled before ++ '\\' :: name) ?_ ?_)
      · rw [whole, spelled, parts]
        simp only [List.append_assoc]
      · rw [Token.stop_namePiece, start, outerStart, byteLength_append, byteLength_append]
    bare := by
      rintro rfl
      rw [Token.stop_namePiece, Piece.stop, Token.piece, command]
      rfl
    opening := by
      intro text given
      refine ⟨liesIn_of_split lies split ('\\' :: name) (text ++ ['}']) ?_
        (Token.stop_namePiece _ _), ?_⟩
      · rw [goesOn text given]
        simp only [List.append_assoc]
      · rw [Token.start_argumentPiece, Token.stop_namePiece, byteLength_append, brace,
          Nat.add_assoc]
    argument_lies := fun text given =>
      liesIn_of_split lies split ('\\' :: name ++ ['{']) ['}'] (goesOn text given) rfl
    closing := by
      intro text given
      refine ⟨liesIn_of_split lies split ('\\' :: name ++ ['{'] ++ text) [] ?_ ?_, ?_⟩
      · rw [goesOn text given, List.append_nil]
      · rw [Token.stop_argumentPiece]
        simp
      · rw [Token.stop_argumentPiece, stop, goesOn text given, byteLength_append _ ['}'], other]
        simp [Token.piece, Nat.add_assoc] }

/-- **Tokens tile the document** at every depth of nesting. -/
theorem tiled_of_lexed {source : List Char} {piece : Piece} (lexed : piece.Lexed source) :
    piece.Tiled source := by
  obtain ⟨outerBefore, outerAfter, whole, outerStart, -⟩ := liesIn_of_lexed lexed
  have lies : piece.LiesIn source := liesIn_iff.mpr ⟨_, _, whole, outerStart⟩
  have tiles := piece.tiles_tokens
  refine ⟨?_, ?_, tiles, ?_, ?_, ?_, ?_⟩
  · intro read rest parts
    have stop : piece.stop = piece.start + byteLength read + byteLength rest := by
      rw [stop, parts, byteLength_append, Nat.add_assoc]
    rw [stop]
    exact lies.part read [] (by rw [parts, List.append_nil]) rfl
  · have short := tiles.length_le
    rwa [Token.spelled, piece.flatMap_text_tokens] at short
  · intro token member
    obtain ⟨before, after, split⟩ := List.append_of_mem member
    rw [split] at tiles
    refine ⟨Nat.lt_add_of_pos_right (byteLength_pos tiles.split.2.1), ?_⟩
    exact liesIn_of_split lies split [] [] (List.append_nil _).symm rfl
  · intro before token after command split asked
    obtain ⟨name, later, unclosed, rfl⟩ := Token.directive_eq_unterminated asked
    obtain ⟨-, -, cut⟩ := split_tokens split
    rw [split] at tiles
    obtain ⟨earlier, -, rest⟩ := tiles.split
    refine ⟨?_, earlier, ?_⟩
    · rw [unclosed] at cut
      generalize spelling : Token.spelled after = tail at cut
      cases cut
      have none := rest.length_le
      rw [spelling] at none
      exact List.length_eq_zero_iff.mp (Nat.le_zero.mp none)
    · refine liesIn_of_split lies split [] later ?_ rfl
      rw [Token.piece, unclosed]
      simp [Lexeme.spelling]
  · intro token member name argument command
    obtain ⟨before, after, split⟩ := List.append_of_mem member
    exact commandLies_of_split lexed split command
  · intro before first second after split
    obtain ⟨-, -, one⟩ := split_tokens split
    rw [← List.singleton_append, ← List.append_assoc] at split
    obtain ⟨-, -, other⟩ := split_tokens split
    rw [Token.spelled, List.flatMap_cons] at one
    exact Lexeme.not_joins_of_cutBefore one other

/-- The argument of a command in the argument of a command, behind characters of two bytes. -/
theorem tiled_of_lexed_inner :
    Tiled "é\\a\x7bü\\b\x7bö\x7d\x7d".toList ⟨['ö'], 10⟩ := by
  let outer : Token := ⟨2, .command ['a'] (some "ü\\b\x7bö\x7d".toList)⟩
  let inner : Token := ⟨7, .command ['b'] (some ['ö'])⟩
  have first : outer ∈ tokens ⟨"é\\a\x7bü\\b\x7bö\x7d\x7d".toList, 0⟩ := by decide +kernel
  have second : inner ∈ (Token.argumentPiece 2 ['a'] "ü\\b\x7bö\x7d".toList).tokens := by
    decide +kernel
  exact tiled_of_lexed (.argument (.argument .document first rfl) second rfl)

end Piece

end Galley
