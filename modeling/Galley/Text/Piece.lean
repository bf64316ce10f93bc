/-! # Pieces of a document

A piece is a stretch of the document together with the place where it starts. Places are counted
in bytes of the document's UTF-8 form, always from the start of the whole document, so a piece of
an argument keeps the place it has in the document.
-/

namespace Galley

/-- Number of bytes of a text in UTF-8. -/
def byteLength : List Char → Nat
  | [] => 0
  | char :: text => char.utf8Size + byteLength text

@[simp] theorem byteLength_nil : byteLength [] = 0 := rfl

@[simp] theorem byteLength_cons (char : Char) (text : List Char) :
    byteLength (char :: text) = char.utf8Size + byteLength text := rfl

@[simp] theorem byteLength_append (left right : List Char) :
    byteLength (left ++ right) = byteLength left + byteLength right := by
  induction left with
  | nil => simp
  | cons char left ih => simp [ih, Nat.add_assoc]

/-- Only the empty text has no bytes. -/
theorem byteLength_pos {text : List Char} (inhabited : text ≠ []) : 0 < byteLength text := by
  cases text with
  | nil => exact absurd rfl inhabited
  | cons char text =>
      have := Char.utf8Size_pos char
      rw [byteLength_cons]
      omega

/-- A half-open range of byte offsets. -/
structure Span where
  /-- Offset of the first byte. -/
  start : Nat
  /-- Offset after the last byte. -/
  stop : Nat
deriving DecidableEq

/-- A stretch of the document. -/
structure Piece where
  /-- The characters of the stretch. -/
  text : List Char
  /-- Byte offset of its first character. -/
  start : Nat
deriving DecidableEq

namespace Piece

/-- Byte offset after the last character. -/
def stop (piece : Piece) : Nat :=
  piece.start + byteLength piece.text

/-- Byte range of the piece in the document. -/
def span (piece : Piece) : Span :=
  ⟨piece.start, piece.stop⟩

/-- The text of a piece as a string, for messages. -/
def toString (piece : Piece) : String :=
  String.ofList piece.text

end Piece
end Galley
