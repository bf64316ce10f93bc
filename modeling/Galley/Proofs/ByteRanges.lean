import Galley.Text.Piece

/-! # Ranges of bytes

A range of bytes can be cut out of a document if it lies inside of it and starts and ends between
two characters (`Galley.Span.slice?_eq_some_iff`). Of a piece that can be cut out every part can be
cut out too (`Galley.Piece.LiesIn.part`).
-/

namespace Galley

/-- The text before a byte offset and the text from there on. There are none if the offset lies
behind the end of the text or inside a character. -/
def splitAtByte? : (offset : Nat) → List Char → Option (List Char × List Char)
  | 0, text => some ([], text)
  | _ + 1, [] => none
  | offset + 1, char :: rest =>
      if char.utf8Size ≤ offset + 1 then
        (splitAtByte? (offset + 1 - char.utf8Size) rest).map fun (before, after) =>
          (char :: before, after)
      else none

/-- The stretch of a text in a range of bytes. There is none if an end of the range lies outside of
the text or inside a character, or if the ends are in the wrong order. -/
def Span.slice? (span : Span) (source : List Char) : Option (List Char) :=
  if span.start ≤ span.stop then
    (splitAtByte? span.start source).bind fun split =>
      (splitAtByte? (span.stop - span.start) split.2).map Prod.fst
  else none

/-- The range of bytes of a piece can be cut out of a document and gives the text of the piece. -/
def Piece.LiesIn (piece : Piece) (source : List Char) : Prop :=
  piece.span.slice? source = some piece.text

theorem splitAtByte?_byteLength (before after : List Char) :
    splitAtByte? (byteLength before) (before ++ after) = some (before, after) := by
  induction before with
  | nil => simp [splitAtByte?]
  | cons char before ih =>
      have positive := Char.utf8Size_pos char
      obtain ⟨offset, same⟩ : ∃ offset, byteLength (char :: before) = offset + 1 :=
        ⟨char.utf8Size + byteLength before - 1, by rw [byteLength_cons]; omega⟩
      rw [byteLength_cons] at same
      have left : offset + 1 - char.utf8Size = byteLength before := by omega
      rw [byteLength_cons, same, List.cons_append, splitAtByte?, if_pos (by omega), left, ih]
      rfl

theorem splitAtByte?_eq_some_iff {offset : Nat} {text before after : List Char} :
    splitAtByte? offset text = some (before, after) ↔
      text = before ++ after ∧ offset = byteLength before := by
  constructor
  · intro split
    fun_induction splitAtByte? offset text generalizing before after with
    | case1 text =>
        cases split
        exact ⟨rfl, rfl⟩
    | case2 => simp at split
    | case3 offset char rest fits ih =>
        obtain ⟨⟨inner, tail⟩, found, same⟩ := Option.map_eq_some_iff.mp split
        cases same
        obtain ⟨rfl, length⟩ := ih found
        refine ⟨rfl, ?_⟩
        rw [byteLength_cons]
        omega
    | case4 => simp at split
  · rintro ⟨rfl, rfl⟩
    exact splitAtByte?_byteLength before after

theorem Span.slice?_eq_some_iff {span : Span} {source text : List Char} :
    span.slice? source = some text ↔
      ∃ before after, source = before ++ text ++ after ∧ span.start = byteLength before ∧
        span.stop = span.start + byteLength text := by
  unfold slice?
  constructor
  · intro cut
    split at cut
    · rename_i ordered
      obtain ⟨⟨before, rest⟩, first, cut⟩ := Option.bind_eq_some_iff.mp cut
      obtain ⟨⟨inner, after⟩, second, rfl⟩ := Option.map_eq_some_iff.mp cut
      obtain ⟨rfl, start⟩ := splitAtByte?_eq_some_iff.mp first
      obtain ⟨rfl, length⟩ := splitAtByte?_eq_some_iff.mp second
      exact ⟨before, after, (List.append_assoc ..).symm, start, by dsimp only; omega⟩
    · simp at cut
  · rintro ⟨before, after, rfl, start, stop⟩
    have length : span.stop - span.start = byteLength text := by omega
    rw [if_pos (by omega), List.append_assoc, start, splitAtByte?_byteLength, Option.bind_some,
      ← start, length, splitAtByte?_byteLength, Option.map_some]

namespace Piece

theorem liesIn_iff {piece : Piece} {source : List Char} :
    piece.LiesIn source ↔
      ∃ before after, source = before ++ piece.text ++ after ∧ piece.start = byteLength before := by
  rw [LiesIn, Span.slice?_eq_some_iff]
  constructor
  · rintro ⟨before, after, whole, start, -⟩
    exact ⟨before, after, whole, start⟩
  · rintro ⟨before, after, whole, start⟩
    exact ⟨before, after, whole, start, rfl⟩

/-- A part of a piece that lies in a document lies there too. -/
theorem LiesIn.part {piece : Piece} {source : List Char} (lies : piece.LiesIn source)
    (before after : List Char) {text : List Char} (whole : piece.text = before ++ text ++ after)
    {start : Nat} (starts : start = piece.start + byteLength before) :
    LiesIn ⟨text, start⟩ source := by
  obtain ⟨outerBefore, outerAfter, same, outerStart⟩ := liesIn_iff.mp lies
  refine liesIn_iff.mpr ⟨outerBefore ++ before, after ++ outerAfter, ?_, ?_⟩
  · rw [same, whole]
    simp only [List.append_assoc]
  · rw [starts, outerStart, byteLength_append]

/-- A document is the same on both sides of an offset, however it is split there. -/
theorem head?_eq_of_liesIn {char : Char} {start : Nat} {source : List Char}
    (lies : LiesIn ⟨[char], start⟩ source) (before : List Char) {after : List Char}
    (whole : source = before ++ after)
    (starts : start = byteLength before) : after.head? = some char := by
  obtain ⟨outerBefore, outerAfter, same, outerStart⟩ := liesIn_iff.mp lies
  rw [List.append_assoc] at same
  have first := splitAtByte?_eq_some_iff.mpr ⟨same, outerStart⟩
  have second := splitAtByte?_eq_some_iff.mpr ⟨whole, starts⟩
  obtain ⟨-, rfl⟩ := Prod.mk.inj (Option.some.inj (first.symm.trans second))
  rfl

end Piece

end Galley
