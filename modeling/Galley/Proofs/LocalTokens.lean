import Mathlib.Data.List.Forall2
import Galley.Proofs.JoinedTexts
import Galley.Proofs.ShiftedTokens

/-! # Tokens depend on nothing around them

What is read in a range of a document depends on the text in the range alone: it is what is read in
that text by itself, at another place (`Galley.Piece.reads_iff`). And wherever a document is cut
between two tokens, both parts are read as they are in the whole (`Galley.Piece.tokens_of_split`).
Main statement: `Galley.tokens_are_local`.
-/

namespace Galley

/-! ## Reading in a range -/

/-- The same range, `offset` bytes later. -/
def Span.shift (offset : Nat) (span : Span) : Span :=
  ⟨span.start + offset, span.stop + offset⟩

/-- The tokens that are read in a range of bytes of a document. As long as the range holds
characters, the first lexeme of these is read and the range goes on behind it. -/
inductive Span.Reads (source : List Char) : Span → List Token → Prop
  | nil {span : Span} (empty : span.slice? source = some []) : Reads source span []
  | cons {span : Span} {char : Char} {rest : List Char} {later : List Token}
      (held : span.slice? source = some (char :: rest))
      (reads : Reads source
        ⟨span.start + byteLength (Lexeme.scan char rest).1.spelling, span.stop⟩ later) :
      Reads source span (⟨span.start, (Lexeme.scan char rest).1⟩ :: later)

theorem Piece.span_shift (offset : Nat) (piece : Piece) :
    (piece.shift offset).span = piece.span.shift offset := by
  simp [span, stop, shift, Span.shift, Nat.add_right_comm]

namespace Piece

variable {source : List Char}

theorem tokens_nil (start : Nat) : tokens ⟨[], start⟩ = [] := by
  rw [tokens, lexemes_nil]
  rfl

/-- What is left of a piece behind its first lexeme. -/
def behind (start : Nat) (char : Char) (rest : List Char) : Piece where
  text := (Lexeme.scan char rest).2
  start := start + byteLength (Lexeme.scan char rest).1.spelling

theorem tokens_cons (start : Nat) (char : Char) (rest : List Char) :
    tokens ⟨char :: rest, start⟩ =
      ⟨start, (Lexeme.scan char rest).1⟩ :: (behind start char rest).tokens := by
  rw [tokens, lexemes]
  rfl

theorem span_behind (start : Nat) (char : Char) (rest : List Char) :
    (behind start char rest).span =
      ⟨start + byteLength (Lexeme.scan char rest).1.spelling, stop ⟨char :: rest, start⟩⟩ := by
  rw [span, stop, stop, behind, Nat.add_assoc, ← byteLength_append, Lexeme.spelling_scan]

theorem LiesIn.behind {start : Nat} {char : Char} {rest : List Char}
    (lies : LiesIn ⟨char :: rest, start⟩ source) : (behind start char rest).LiesIn source := by
  refine lies.part (Lexeme.scan char rest).1.spelling [] ?_ rfl
  rw [List.append_nil]
  exact (Lexeme.spelling_scan char rest).symm

theorem reads_tokens (text : List Char) : ∀ start, LiesIn ⟨text, start⟩ source →
    (span ⟨text, start⟩).Reads source (tokens ⟨text, start⟩) := by
  induction text using lexemes.induct with
  | case1 =>
      intro start lies
      rw [tokens_nil]
      exact .nil lies
  | case2 char rest _ ih =>
      intro start lies
      have later := ih _ lies.behind
      change (behind start char rest).span.Reads source (behind start char rest).tokens at later
      rw [span_behind] at later
      rw [tokens_cons]
      exact .cons lies later

theorem eq_tokens_of_reads {span : Span} {items : List Token} (reads : span.Reads source items)
    {piece : Piece} (lies : piece.LiesIn source) (same : piece.span = span) :
    items = piece.tokens := by
  obtain ⟨text, start⟩ := piece
  induction reads generalizing text start with
  | nil empty =>
      rw [← same, lies] at empty
      cases Option.some.inj empty
      rw [tokens_nil]
  | @cons range char rest later held reads ih =>
      rw [← same, lies] at held
      cases Option.some.inj held
      cases same
      have next := ih _ _ lies.behind (span_behind start char rest)
      rw [tokens_cons, next]
      rfl

/-- **Reading in a range** gives the tokens of the text in that range. -/
theorem reads_iff {piece : Piece} (lies : piece.LiesIn source) {items : List Token} :
    piece.span.Reads source items ↔ items = piece.tokens := by
  constructor
  · exact fun reads => eq_tokens_of_reads reads lies rfl
  · rintro rfl
    exact reads_tokens piece.text piece.start lies

end Piece

/-! ## Reading on both sides of a cut -/

theorem Token.length_place (start : Nat) (units : List Lexeme) :
    (place start units).length = units.length := by
  rw [← List.length_map lexeme, map_lexeme_place]

/-- **Cutting between two tokens.** The tokens before and behind the cut are those of the two texts
that they spell. -/
theorem Piece.tokens_of_split {piece : Piece} {before after : List Token}
    (split : piece.tokens = before ++ after) :
    tokens ⟨Token.spelled before, piece.start⟩ = before ∧
      tokens ⟨Token.spelled after, piece.start + byteLength (Token.spelled before)⟩ = after := by
  have units : lexemes piece.text = before.map Token.lexeme ++ after.map Token.lexeme := by
    rw [← List.map_append, ← split, tokens, Token.map_lexeme_place]
  have cut := cut_lexemes piece.text
  rw [units] at cut
  obtain ⟨first, second⟩ := cut.of_append
  have placed : Token.place piece.start (before.map Token.lexeme) ++
      Token.place (piece.start + byteLength (Token.spelled before)) (after.map Token.lexeme) =
        before ++ after := by
    rw [Token.place_add, Token.spelled_eq, ← Token.place_append, ← units, ← split, tokens]
  rw [tokens, tokens, Token.spelled_eq, Token.spelled_eq, first.lexemes_eq, second.lexemes_eq,
    ← Token.spelled_eq]
  exact List.append_inj placed (by rw [Token.length_place, List.length_map])

theorem Token.Tiles.start_le {start stop : Nat} {tokens : List Token}
    (tiles : Tiles start stop tokens) : start ≤ stop := by
  induction tiles with
  | nil => exact Nat.le_refl _
  | @cons token stop rest inhabited tail ih =>
      exact Nat.le_trans (Nat.le_add_right token.start _) ih

theorem Token.Tiles.eq_of_nil {start stop : Nat} (tiles : Tiles start stop []) : start = stop := by
  cases tiles
  rfl

theorem Token.Tiles.of_mem {start stop : Nat} {tokens : List Token}
    (tiles : Tiles start stop tokens) {token : Token} (member : token ∈ tokens) :
    start ≤ token.start ∧ token.start < token.piece.stop ∧ token.piece.stop ≤ stop := by
  obtain ⟨before, after, rfl⟩ := List.append_of_mem member
  obtain ⟨earlier, inhabited, later⟩ := tiles.split
  exact ⟨earlier.start_le, Nat.lt_add_of_pos_right (byteLength_pos inhabited), later.start_le⟩

/-- Where a token starts or ends, the tokens are split in two. -/
theorem Piece.split_at_boundary {piece : Piece} {offset : Nat} {token : Token}
    (member : token ∈ piece.tokens) (boundary : offset = token.start ∨ offset = token.piece.stop) :
    ∃ before after, piece.tokens = before ++ after ∧
      offset = piece.start + byteLength (Token.spelled before) := by
  obtain ⟨before, after, split⟩ := List.append_of_mem member
  obtain ⟨start, -, -⟩ := split_tokens split
  rcases boundary with rfl | rfl
  · exact ⟨before, token :: after, split, start⟩
  · refine ⟨before ++ [token], after, by rw [split, List.append_assoc]; rfl, ?_⟩
    rw [Token.spelled, List.flatMap_append, List.flatMap_singleton, byteLength_append,
      ← Nat.add_assoc, ← Token.spelled, ← start]
    rfl

/-- Of tokens that tile two ranges one behind the other, those of the first end where the second
starts or before, and those of the second start there or later. -/
theorem Token.Tiles.filter_append {start middle stop : Nat} {before after : List Token}
    (first : Tiles start middle before) (second : Tiles middle stop after) :
    (before ++ after).filter (fun token => token.piece.stop ≤ middle) = before ∧
      (before ++ after).filter (fun token => middle ≤ token.start) = after := by
  have left {token : Token} (member : token ∈ before) := first.of_mem member
  have right {token : Token} (member : token ∈ after) := second.of_mem member
  rw [List.filter_append, List.filter_append]
  constructor
  · rw [List.filter_eq_self.mpr, List.filter_eq_nil_iff.mpr, List.append_nil]
    · intro token member
      rw [decide_eq_true_eq]
      have later := right member
      omega
    · intro token member
      rw [decide_eq_true_eq]
      exact (left member).2.2
  · rw [List.filter_eq_nil_iff.mpr, List.filter_eq_self.mpr, List.nil_append]
    · intro token member
      rw [decide_eq_true_eq]
      exact (right member).1
    · intro token member
      rw [decide_eq_true_eq]
      have earlier := left member
      omega

/-! ## Both together -/

/-- How a token stands `offset` bytes later: the lexeme is the same, its range and those of its name
and its argument are shifted, and so is every piece in what it asks for or in the problem that it
shows. -/
structure Token.ShiftedBy (offset : Nat) (token shifted : Token) : Prop where
  lexeme : shifted.lexeme = token.lexeme
  span : shifted.piece.span = token.piece.span.shift offset
  name : ∀ name,
    (namePiece shifted.start name).span = (namePiece token.start name).span.shift offset
  argument : ∀ name text, (argumentPiece shifted.start name text).span =
    (argumentPiece token.start name text).span.shift offset
  directive : shifted.directive =
    (token.directive.map (Directive.shift offset)).mapError (Problem.shift offset)

theorem Token.shiftedBy_shift (offset : Nat) (token : Token) :
    ShiftedBy offset token (token.shift offset) where
  lexeme := rfl
  span := Piece.span_shift offset token.piece
  name name := by
    rw [← Piece.span_shift, ← namePiece_add]
    rfl
  argument name text := by
    rw [← Piece.span_shift, ← argumentPiece_add]
    rfl
  directive := directive_shift offset token

/-- How a range of a document is read: in one way, which gives the tokens of the piece that stands
there. These are the tokens of its text alone, shifted by the start of the range, and the same are
read in every document with that text there. -/
structure Span.ReadsAlone (source : List Char) (span : Span) (text : List Char) : Prop where
  reads : ∀ items, span.Reads source items ↔ items = Piece.tokens ⟨text, span.start⟩
  alone : Piece.tokens ⟨text, span.start⟩ = (tokens text).map (Token.shift span.start)
  shifted : List.Forall₂ (Token.ShiftedBy span.start) (tokens text)
    (Piece.tokens ⟨text, span.start⟩)
  elsewhere : ∀ other, span.slice? other = some text →
    ∀ items, span.Reads other items ↔ span.Reads source items

theorem Span.readsAlone {source : List Char} {span : Span} {text : List Char}
    (held : span.slice? source = some text) : span.ReadsAlone source text := by
  have reads {other : List Char} (held : span.slice? other = some text) (items : List Token) :
      span.Reads other items ↔ items = Piece.tokens ⟨text, span.start⟩ := by
    obtain ⟨before, after, whole, start, stop⟩ := slice?_eq_some_iff.mp held
    have same : Piece.span ⟨text, span.start⟩ = span := by rw [Piece.span, Piece.stop, ← stop]
    have lies : Piece.LiesIn ⟨text, span.start⟩ other := by rw [Piece.LiesIn, same, held]
    rw [← Piece.reads_iff lies, same]
  have alone : Piece.tokens ⟨text, span.start⟩ = (tokens text).map (Token.shift span.start) := by
    rw [tokens, ← Piece.tokens_shift, Piece.shift, Nat.zero_add]
  refine ⟨reads held, alone, ?_, fun other lies items => ?_⟩
  · rw [alone, List.forall₂_map_right_iff, List.forall₂_same]
    exact fun token _ => token.shiftedBy_shift span.start
  · rw [reads lies, reads held]

/-- How a document is read that is cut at an offset: the text before the offset gives the tokens
that end there or earlier, the text behind it, shifted by the offset, those that start there or
later, and there are no others. -/
structure CutsTokens (source : List Char) (offset : Nat) (before after : List Char) : Prop where
  split : splitAtByte? offset source = some (before, after)
  whole : tokens source = tokens before ++ (tokens after).map (Token.shift offset)
  earlier : tokens before = (tokens source).filter fun token => token.piece.stop ≤ offset
  later : (tokens after).map (Token.shift offset) =
    (tokens source).filter fun token => offset ≤ token.start

theorem cutsTokens_of_split {source : List Char} {before after : List Token}
    (split : tokens source = before ++ after) :
    CutsTokens source (byteLength (Token.spelled before)) (Token.spelled before)
      (Token.spelled after) := by
  obtain ⟨first, second⟩ := Piece.tokens_of_split split
  have text : source = Token.spelled before ++ Token.spelled after := by
    have spelled := Piece.flatMap_text_tokens ⟨source, 0⟩
    rw [← tokens, split, List.flatMap_append] at spelled
    exact spelled.symm
  have firstTiles := Piece.tiles_tokens ⟨Token.spelled before, 0⟩
  have secondTiles := Piece.tiles_tokens
    ⟨Token.spelled after, 0 + byteLength (Token.spelled before)⟩
  rw [first, Piece.stop] at firstTiles
  rw [second] at secondTiles
  obtain ⟨ends, starts⟩ := firstTiles.filter_append secondTiles
  rw [Nat.zero_add] at ends starts
  have shifted : (tokens (Token.spelled after)).map
      (Token.shift (byteLength (Token.spelled before))) = after := by
    rw [tokens, ← Piece.tokens_shift]
    exact second
  have same : tokens (Token.spelled before) = before := first
  refine ⟨?_, ?_, ?_, ?_⟩
  · rw [text]
    exact splitAtByte?_byteLength _ _
  · rw [shifted, same, split]
  · rw [split, ends, same]
  · rw [split, starts, shifted]

/-- **Tokens are local.** Every range of a document that starts and ends between characters is read
as the text in it is read alone, whatever stands around it. And at every start or end of a token the
document can be cut, with the tokens of both parts being those of the whole on that side. -/
theorem tokens_are_local (source : List Char) :
    (∀ (span : Span) (text : List Char), span.slice? source = some text →
      span.ReadsAlone source text) ∧
      ∀ token ∈ tokens source, ∀ offset, offset = token.start ∨ offset = token.piece.stop →
        ∃ before after, CutsTokens source offset before after := by
  refine ⟨fun span text held => Span.readsAlone held, fun token member offset boundary => ?_⟩
  obtain ⟨before, after, split, cut⟩ := Piece.split_at_boundary member boundary
  rw [Nat.zero_add] at cut
  subst cut
  exact ⟨_, _, cutsTokens_of_split split⟩

/-- The argument of a command behind characters of two bytes each, and the cut between the command
and the line break behind it. -/
theorem tokens_are_local_of_command :
    let source := "éé\\bold\x7bü \\x\x7d\r\n".toList
    (∀ items, Span.Reads source ⟨10, 15⟩ items ↔
      items = [⟨10, .text ['ü']⟩, ⟨12, .blank [' ']⟩, ⟨13, .command ['x'] none⟩]) ∧
    CutsTokens source 16 "éé\\bold\x7bü \\x\x7d".toList "\r\n".toList := by
  intro source
  have held : Span.slice? ⟨10, 15⟩ source = some "ü \\x".toList := by decide +kernel
  have items : Piece.tokens ⟨"ü \\x".toList, 10⟩ =
      [⟨10, .text ['ü']⟩, ⟨12, .blank [' ']⟩, ⟨13, .command ['x'] none⟩] := by decide +kernel
  have member : ⟨4, .command "bold".toList (some "ü \\x".toList)⟩ ∈ tokens source := by
    decide +kernel
  have cut : splitAtByte? 16 source =
      some ("éé\\bold\x7bü \\x\x7d".toList, "\r\n".toList) := by decide +kernel
  constructor
  · rw [← items]
    exact ((tokens_are_local source).1 _ _ held).reads
  · obtain ⟨before, after, cuts⟩ :=
      (tokens_are_local source).2 _ member 16 (.inr (by decide +kernel))
    obtain ⟨rfl, rfl⟩ := Prod.mk.inj (Option.some.inj (cuts.split.symm.trans cut))
    exact cuts

end Galley
