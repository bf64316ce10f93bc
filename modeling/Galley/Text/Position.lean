/-! # Positions in a text

A reader finds a place in a text by its line and by its column in characters, both counted from
one. The character or pair of characters that ends a line belongs to that line.
-/

namespace Galley

/-- A place in a text. -/
structure Position where
  line : Nat
  column : Nat
deriving DecidableEq

/-- Whether a character before a given text ends a line. A carriage return before a line feed
leaves that to the line feed. -/
def endsLine (char : Char) (rest : List Char) : Bool :=
  if char = '\r' then rest.head? ≠ some '\n'
  else char = '\n' || char = '\x0b' || char = '\x0c' || char = '\u0085' || char = '\u2028' ||
    char = '\u2029'

namespace Position

/-- The first place of a text. -/
def first : Position :=
  ⟨1, 1⟩

/-- The place after a character. -/
def advance (position : Position) (char : Char) (rest : List Char) : Position :=
  if endsLine char rest then ⟨position.line + 1, 1⟩ else ⟨position.line, position.column + 1⟩

/-- The place that is a number of bytes after a place at which a text starts. -/
def after (position : Position) : (bytes : Nat) → List Char → Position
  | 0, _ => position
  | _ + 1, [] => position
  | bytes + 1, char :: rest =>
      (position.advance char rest).after (bytes + 1 - char.utf8Size) rest

/-- The place at a byte offset of a text. -/
def ofOffset (text : List Char) (offset : Nat) : Position :=
  first.after offset text

end Position
end Galley
