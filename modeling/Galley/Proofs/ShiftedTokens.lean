import Galley.Proofs.FormatReport

/-! # Tokens at another place

The same lexemes at another place of a document are the same tokens with other offsets. What is
found about them is found at the other place: the problem and the warnings of a document are shifted
with its tokens and do not change otherwise (`Galley.firstProblem?_shift`,
`Galley.foundWarnings_shift`).
-/

namespace Galley

/-- The same stretch of text, `offset` bytes later. -/
def Piece.shift (offset : Nat) (piece : Piece) : Piece :=
  { piece with start := piece.start + offset }

/-- The same problem, `offset` bytes later. -/
def Problem.shift (offset : Nat) : Problem → Problem
  | .invalidCharacter char => .invalidCharacter (char.shift offset)
  | .unterminatedArgument command => .unterminatedArgument (command.shift offset)
  | .missingArgument command => .missingArgument (command.shift offset)
  | .nestedEndnote command => .nestedEndnote (command.shift offset)
  | .invalidInteger command argument =>
      .invalidInteger (command.shift offset) (argument.shift offset)
  | .invalidValue command argument invalid =>
      .invalidValue (command.shift offset) (argument.shift offset) invalid

/-- The same warning, `offset` bytes later. -/
def Warning.shift (offset : Nat) : Warning → Warning
  | .unknownCommand name => .unknownCommand (name.shift offset)

/-- The same failure. One that is about the document is about a place `offset` bytes later. -/
def Failure.shift (offset : Nat) : Failure → Failure
  | .document problem => .document (problem.shift offset)
  | .presets invalid => .presets invalid
  | .output reason => .output reason

/-- The same lexeme, `offset` bytes later. -/
def Token.shift (offset : Nat) (token : Token) : Token :=
  { token with start := token.start + offset }

def Directive.shift (offset : Nat) : Directive → Directive
  | .measure kind value command argument =>
      .measure kind value (command.shift offset) (argument.shift offset)
  | .note command body => .note (command.shift offset) (body.map (Token.shift offset))
  | .skip name => .skip (name.shift offset)
  | directive => directive

variable (offset : Nat)

namespace Token

theorem place_add (start : Nat) (units : List Lexeme) :
    place (start + offset) units = (place start units).map (shift offset) := by
  induction units generalizing start with
  | nil => rfl
  | cons unit units ih =>
      rw [place, place, List.map_cons, Nat.add_right_comm, ih]
      rfl

theorem place_append (start : Nat) (first second : List Lexeme) :
    place start (first ++ second) = place start first ++
      (place start second).map (shift (byteLength (first.flatMap Lexeme.spelling))) := by
  induction first generalizing start with
  | nil =>
      have still : shift 0 = id := rfl
      rw [List.flatMap_nil, byteLength_nil, still, List.map_id]
      rfl
  | cons unit first ih =>
      rw [List.cons_append, place, place, ih, List.cons_append, List.flatMap_cons,
        byteLength_append, ← place_add, ← place_add, Nat.add_assoc]

theorem argumentStart_add (start : Nat) (name : List Char) :
    argumentStart (start + offset) name = argumentStart start name + offset := by
  unfold argumentStart
  omega

theorem argumentPiece_add (start : Nat) (name argument : List Char) :
    argumentPiece (start + offset) name argument =
      (argumentPiece start name argument).shift offset := by
  rw [argumentPiece_eq, argumentPiece_eq, argumentStart_add]
  rfl

theorem namePiece_add (start : Nat) (name : List Char) :
    namePiece (start + offset) name = (namePiece start name).shift offset := by
  rw [namePiece, Nat.add_right_comm]
  rfl

end Token

theorem Piece.tokens_shift (piece : Piece) :
    (piece.shift offset).tokens = piece.tokens.map (Token.shift offset) :=
  Token.place_add offset piece.start (lexemes piece.text)

theorem Directive.problem?_shift (directive : Directive) (mode : Mode) :
    (directive.shift offset).problem? mode =
      (directive.problem? mode).map (Problem.shift offset) := by
  cases directive with
  | measure kind value command argument =>
      rw [shift, problem?, problem?]
      split <;> rfl
  | note command body => cases mode <;> rfl
  | _ => rfl

namespace Token

theorem commandDirective_shift (command : Piece) (argument : Option Piece) (known : Command) :
    commandDirective (command.shift offset) (argument.map (Piece.shift offset)) known =
      ((commandDirective command argument known).map (Directive.shift offset)).mapError
        (Problem.shift offset) := by
  cases known with
  | measure kind =>
      cases argument with
      | none => rfl
      | some argument =>
          simp only [commandDirective, Option.map_some, Piece.shift]
          cases readArgumentValue? argument.text <;> rfl
  | switch kind on => rfl
  | endnote =>
      cases argument with
      | none => rfl
      | some body =>
          rw [Option.map_some, commandDirective, Piece.tokens_shift]
          rfl

/-- A token asks for the same at another place. -/
theorem directive_shift (token : Token) :
    (token.shift offset).directive =
      (token.directive.map (Directive.shift offset)).mapError (Problem.shift offset) := by
  obtain ⟨start, unit⟩ := token
  cases unit with
  | command name argument =>
      simp only [directive, shift]
      cases Command.ofName? name with
      | none =>
          rw [namePiece_add]
          rfl
      | some known =>
          rw [← commandDirective_shift, Option.map_map]
          cases argument with
          | none => rfl
          | some argument => rw [Option.map_some, argumentPiece_add]; rfl
  | _ => rfl

theorem problem?_shift (mode : Mode) (token : Token) :
    (token.shift offset).problem? mode = (token.problem? mode).map (Problem.shift offset) := by
  rw [problem?, problem?, directive_shift]
  cases token.directive with
  | error problem => rfl
  | ok directive => exact directive.problem?_shift offset mode

theorem warning?_shift (token : Token) :
    (token.shift offset).warning? = token.warning?.map (Warning.shift offset) := by
  rw [warning?, warning?, directive_shift]
  cases token.directive with
  | error problem => rfl
  | ok directive => cases directive <;> rfl

theorem noteTokens_shift (token : Token) :
    (token.shift offset).noteTokens = token.noteTokens.map (shift offset) := by
  simp only [noteTokens, shift]
  cases token.lexeme.noteBody? with
  | none => rfl
  | some body =>
      simp only [argumentStart_add]
      exact Piece.tokens_shift offset ⟨body, _⟩

end Token

theorem tokenTree_shift (mode : Mode) (tokens : List Token) :
    tokenTree mode (tokens.map (Token.shift offset)) =
      (tokenTree mode tokens).map (Prod.map id (Token.shift offset)) := by
  fun_induction tokenTree mode tokens with
  | case1 mode => rw [List.map_nil, tokenTree, List.map_nil]
  | case2 mode token rest inner later =>
      rw [List.map_cons, tokenTree, Token.noteTokens_shift, inner, later, List.map_cons,
        List.map_append]
      rfl

theorem firstProblem?_shift (mode : Mode) (tokens : List Token) :
    firstProblem? mode (tokens.map (Token.shift offset)) =
      (firstProblem? mode tokens).map (Problem.shift offset) := by
  rw [firstProblem?, firstProblem?, tokenTree_shift, List.findSome?_map, List.map_findSome?]
  congr 1
  funext node
  exact node.2.problem?_shift offset node.1

theorem foundWarnings_shift (mode : Mode) (tokens : List Token) :
    foundWarnings mode (tokens.map (Token.shift offset)) =
      (foundWarnings mode tokens).map (Warning.shift offset) := by
  rw [foundWarnings, foundWarnings, tokenTree_shift, warningsBeforeProblem,
    warningsBeforeProblem, List.takeWhile_map, List.filterMap_map, List.map_filterMap]
  congr 1
  · funext node
    exact node.2.warning?_shift offset
  · congr 1
    funext node
    have shifted := node.2.problem?_shift offset node.1
    simp only [Function.comp_apply, Prod.map_fst, Prod.map_snd, id_eq, shifted, Option.isNone_map]

end Galley
