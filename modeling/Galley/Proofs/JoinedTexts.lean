import Galley.Proofs.ClosedArguments
import Galley.Proofs.CutLexemes

/-! # Lexemes of joined texts

What comes behind a text does not change how the text is cut, except for its last lexeme: if that is
cut off before the second text, then the lexemes of two joined texts are those of the first followed
by those of the second (`Galley.lexemes_joined`).
-/

namespace Galley

theorem StopsRun.append {continues : Char → Bool} {rest tail : List Char}
    (stops : StopsRun continues rest) (ends : rest = [] → StopsRun continues tail) :
    StopsRun continues (rest ++ tail) := by
  cases rest with
  | nil => exact ends rfl
  | cons char rest => exact stops

/-- A text that is joined with another starts with a line break if it does so alone, unless it is
empty or a carriage return that a line feed follows now. -/
theorem not_startsWithLineEnd_append {rest tail : List Char} (stops : ¬StartsWithLineEnd rest)
    (ends : rest = [] → ¬StartsWithLineEnd tail)
    (apart : rest = ['\r'] → tail.head? ≠ some '\n') : ¬StartsWithLineEnd (rest ++ tail) := by
  match rest with
  | [] => exact ends rfl
  | [char] =>
      apply not_startsWithLineEnd_cons
      · rintro rfl
        exact stops ⟨.lf, [], rfl⟩
      · rintro rfl
        exact apart rfl
  | char :: next :: rest =>
      apply not_startsWithLineEnd_cons
      · rintro rfl
        exact stops ⟨.lf, next :: rest, rfl⟩
      · rintro rfl feed
        cases Option.some.inj feed
        exact stops ⟨.crlf, rest, rfl⟩

/-- A lexeme is cut off before a longer text as before a text, unless that was empty or a carriage
return that a line feed follows now. -/
theorem Lexeme.CutBefore.append {unit : Lexeme} {rest tail : List Char} (cut : unit.CutBefore rest)
    (ends : rest = [] → unit.CutBefore tail) (apart : rest = ['\r'] → tail.head? ≠ some '\n') :
    unit.CutBefore (rest ++ tail) := by
  by_cases empty : rest = []
  · rw [empty]
    exact ends empty
  · have filled {property : Prop} : rest = [] → property := fun nothing => absurd nothing empty
    cases cut with
    | blank inhabited blanks stops => exact .blank inhabited blanks (stops.append filled)
    | lineBreak lineEnd stops =>
        exact .lineBreak lineEnd (not_startsWithLineEnd_append stops filled apart)
    | paragraphBreak first second more stops =>
        exact .paragraphBreak first second more
          (not_startsWithLineEnd_append stops filled apart)
    | escaped escapable => exact .escaped escapable _
    | bareCommand inhabited letters stops =>
        exact .bareCommand inhabited letters (stops.append filled)
    | command inhabited letters closed =>
        exact .command inhabited letters ((closes_of_splitArgument closed).splitArgument_eq _)
    | unclosed => exact absurd rfl empty
    | text inhabited ordinary stops => exact .text inhabited ordinary (stops.append filled)
    | backslash stops => exact .backslash (stops.append filled)
    | brace brace => exact .brace brace _
    | carriageReturn stops => exact .carriageReturn (stops.append filled)

theorem Cut.eq_nil {units : List Lexeme} (cut : Cut units)
    (empty : units.flatMap Lexeme.spelling = []) : units = [] := by
  rw [← cut.lexemes_eq, empty, lexemes_nil]

theorem Cut.eq_return {units : List Lexeme} (cut : Cut units)
    (lone : units.flatMap Lexeme.spelling = ['\r']) : units = [.stray '\r'] := by
  have stray : Cut [.stray '\r'] := .cons (.carriageReturn (by simp [StopsRun])) .nil
  rw [← cut.lexemes_eq, lone]
  exact stray.lexemes_eq

/-- Two lists of lexemes are cut one behind the other if the last of the first list is cut off
before the second. -/
theorem Cut.append {first second : List Lexeme} (cut : Cut first) (later : Cut second)
    (meets : ∀ last ∈ first.getLast?, last.CutBefore (second.flatMap Lexeme.spelling)) :
    Cut (first ++ second) := by
  induction cut with
  | nil => exact later
  | @cons unit rest head tail ih =>
      have meetsRest : ∀ last ∈ rest.getLast?,
          last.CutBefore (second.flatMap Lexeme.spelling) := by
        intro last among
        refine meets last ?_
        rw [Option.mem_def] at among ⊢
        rw [List.getLast?_cons, among, Option.getD_some]
      rw [List.cons_append]
      refine .cons ?_ (ih meetsRest)
      rw [List.flatMap_append]
      refine head.append (fun empty => ?_) fun lone feed => ?_
      · cases tail.eq_nil empty
        exact meets unit rfl
      · -- A carriage return alone is stray, and cut off only where no line feed follows.
        cases tail.eq_return lone
        cases meetsRest _ rfl with
        | brace brace => simp at brace
        | carriageReturn stops => simpa using stops '\n' feed

theorem StopsRun.of_append {continues : Char → Bool} {rest tail : List Char}
    (stops : StopsRun continues (rest ++ tail)) : StopsRun continues rest := by
  intro char first
  refine stops char ?_
  rw [Option.mem_def] at first ⊢
  rw [List.head?_append, first, Option.some_or]

/-- A lexeme that is cut off before a text is cut off before each part of it from its start. -/
theorem Lexeme.CutBefore.of_append {unit : Lexeme} {rest tail : List Char}
    (cut : unit.CutBefore (rest ++ tail)) : unit.CutBefore rest := by
  have shorter (stops : ¬StartsWithLineEnd (rest ++ tail)) : ¬StartsWithLineEnd rest := by
    rintro ⟨lineEnd, after, rfl⟩
    exact stops ⟨lineEnd, after ++ tail, List.append_assoc ..⟩
  generalize whole : rest ++ tail = text at cut
  cases cut with
  | blank inhabited blanks stops =>
      rw [← whole] at stops
      exact .blank inhabited blanks stops.of_append
  | lineBreak lineEnd stops =>
      rw [← whole] at stops
      exact .lineBreak lineEnd (shorter stops)
  | paragraphBreak first second more stops =>
      rw [← whole] at stops
      exact .paragraphBreak first second more (shorter stops)
  | escaped escapable => exact .escaped escapable _
  | bareCommand inhabited letters stops =>
      rw [← whole] at stops
      exact .bareCommand inhabited letters stops.of_append
  | command inhabited letters closed =>
      exact .command inhabited letters ((closes_of_splitArgument closed).splitArgument_eq _)
  | unclosed inhabited letters unmatched =>
      rw [(List.append_eq_nil_iff.mp whole).1]
      exact .unclosed inhabited letters unmatched
  | text inhabited ordinary stops =>
      rw [← whole] at stops
      exact .text inhabited ordinary stops.of_append
  | backslash stops =>
      rw [← whole] at stops
      exact .backslash stops.of_append
  | brace brace => exact .brace brace _
  | carriageReturn stops =>
      rw [← whole] at stops
      exact .carriageReturn stops.of_append

theorem Cut.of_append {first second : List Lexeme} (cut : Cut (first ++ second)) :
    Cut first ∧ Cut second := by
  induction first with
  | nil => exact ⟨.nil, cut⟩
  | cons unit first ih =>
      rw [List.cons_append] at cut
      cases cut with
      | cons head tail =>
          obtain ⟨before, after⟩ := ih tail
          rw [List.flatMap_append] at head
          exact ⟨.cons head.of_append before, after⟩

/-- The last lexeme of a text ends as the text does. -/
theorem last_lexeme {text : List Char} {last : Lexeme} (found : last ∈ (lexemes text).getLast?) :
    last.CutBefore [] ∧ text.getLast? = last.spelling.getLast? := by
  obtain ⟨init, split⟩ := List.getLast?_eq_some_iff.mp found
  have cut := cutBefore_of_lexemes_eq split
  refine ⟨cut, ?_⟩
  rw [← flatMap_spelling_lexemes text, split, List.flatMap_append, List.flatMap_singleton,
    List.getLast?_append, List.getLast?_eq_some_getLast cut.spelling_ne_nil, Option.some_or]

/-- **Lexemes of joined texts** are those of the two texts. -/
theorem lexemes_joined {first second : List Char}
    (meets : ∀ last ∈ (lexemes first).getLast?, last.CutBefore second) :
    lexemes (first ++ second) = lexemes first ++ lexemes second := by
  have joined := ((cut_lexemes first).append (cut_lexemes second) (by
    rwa [flatMap_spelling_lexemes])).lexemes_eq
  rwa [List.flatMap_append, flatMap_spelling_lexemes, flatMap_spelling_lexemes] at joined

end Galley
