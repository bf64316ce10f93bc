import Galley.Markup.Lexeme
import Galley.Text.Piece

/-! # Tokens

A token is a lexeme at its place in the document. The tokens of an argument are those of its text,
placed where the argument stands. Main statement: the tokens of a text lie end to end
(`flatMap_text_tokens` and `Token.Tiles`).
-/

namespace Galley

/-- A lexeme and the byte offset at which it starts. -/
structure Token where
  start : Nat
  lexeme : Lexeme
deriving DecidableEq

namespace Token

/-- The stretch of the document that a token stands for. -/
def piece (token : Token) : Piece :=
  ⟨token.lexeme.spelling, token.start⟩

/-- Give places to lexemes that follow each other without gaps. -/
def place : (start : Nat) → List Lexeme → List Token
  | _, [] => []
  | start, lexeme :: rest =>
      ⟨start, lexeme⟩ :: place (start + byteLength lexeme.spelling) rest

/-- Consecutive tokens that cover the bytes from `start` to `stop`, each where the last ended. -/
inductive Tiles : (start stop : Nat) → List Token → Prop
  | nil (start : Nat) : Tiles start start []
  | cons {token : Token} {stop : Nat} {rest : List Token}
      (inhabited : token.piece.text ≠ []) (tail : Tiles token.piece.stop stop rest) :
      Tiles token.start stop (token :: rest)

/-- The name of a command at `start`, which stands after its backslash. -/
def namePiece (start : Nat) (name : List Char) : Piece :=
  ⟨name, start + byteLength ['\\']⟩

/-- The name of a command at `start`, with its backslash. -/
def commandPiece (start : Nat) (name : List Char) : Piece :=
  ⟨'\\' :: name, start⟩

/-- The name of a command at `start`, with its backslash and the brace after it. -/
def openingPiece (start : Nat) (name : List Char) : Piece :=
  ⟨'\\' :: name ++ ['{'], start⟩

/-- The argument of a command at `start`, which stands after the brace that opens it. -/
def argumentPiece (start : Nat) (name argument : List Char) : Piece :=
  ⟨argument, (openingPiece start name).stop⟩

end Token

/-- The tokens of a piece of the document. -/
def Piece.tokens (piece : Piece) : List Token :=
  Token.place piece.start (lexemes piece.text)

/-- The tokens of a whole document. -/
def tokens (source : List Char) : List Token :=
  Piece.tokens ⟨source, 0⟩

namespace Token

theorem map_lexeme_place (start : Nat) (units : List Lexeme) :
    (place start units).map lexeme = units := by
  induction units generalizing start with
  | nil => rfl
  | cons unit units ih => simp [place, ih]

theorem tiles_place (start : Nat) (units : List Lexeme)
    (inhabited : ∀ unit ∈ units, unit.spelling ≠ []) :
    Tiles start (start + byteLength (units.flatMap Lexeme.spelling)) (place start units) := by
  induction units generalizing start with
  | nil => exact .nil start
  | cons unit units ih =>
      rw [List.forall_mem_cons] at inhabited
      rw [List.flatMap_cons, byteLength_append, ← Nat.add_assoc]
      have head : (piece ⟨start, unit⟩).text ≠ [] := inhabited.1
      exact Tiles.cons head (ih _ inhabited.2)

end Token

/-- The tokens of a piece spell it. -/
theorem Piece.flatMap_text_tokens (piece : Piece) :
    piece.tokens.flatMap (fun token => token.piece.text) = piece.text := by
  have spelled := flatMap_spelling_lexemes piece.text
  rw [← Token.map_lexeme_place piece.start (lexemes piece.text), List.flatMap_map] at spelled
  exact spelled

/-- The tokens of a piece cover it from end to end. -/
theorem Piece.tiles_tokens (piece : Piece) :
    Token.Tiles piece.start piece.stop piece.tokens := by
  have tiled := Token.tiles_place piece.start (lexemes piece.text)
    fun _ member => spelling_ne_nil_of_mem_lexemes member
  rwa [flatMap_spelling_lexemes] at tiled

end Galley
