import Galley.Proofs.SetParagraphs

/-! # Reading printed lines back

Lines are printed with at least one blank between neighbouring words and, between paragraphs, with
at least one empty line. So the outline of what paragraphs are printed as are the words on their
lines (`Galley.outline_printed`).
-/

namespace Galley

open Composer (between)

/-- Texts that are printed as lines. -/
def printed (texts : List (List Char)) : List Char :=
  texts.flatMap (· ++ ['\n'])

theorem printed_cons (text : List Char) (rest : List (List Char)) :
    printed (text :: rest) = text ++ '\n' :: printed rest :=
  (List.append_cons text '\n' (printed rest)).symm

theorem printed_append (first second : List (List Char)) :
    printed (first ++ second) = printed first ++ printed second :=
  List.flatMap_append

theorem printed_skips (count : Nat) :
    printed (List.replicate count []) = List.replicate count '\n' := by
  induction count with
  | zero => rfl
  | succ count ih =>
      rw [List.replicate_succ, List.replicate_succ, printed, List.flatMap_cons, ← printed, ih]
      rfl

theorem isBlank_of_ordinary {char : Char} (ordinary : isSpecial char = false) :
    isBlank char = false := by
  simp only [isSpecial, Bool.or_eq_false_iff] at ordinary
  exact ordinary.1.1.1.1.1

/-- Joined words start with the first character of the first word. -/
theorem ordinary_of_head?_joinWords {words : List (List Char)} (inhabited : words ≠ [])
    (isWords : ∀ word ∈ words, IsWord word) (gaps : List Nat) (rest : List Char) {char : Char}
    (first : char ∈ (Line.joinWords words gaps ++ rest).head?) : isSpecial char = false := by
  obtain ⟨word, later, rfl⟩ := List.exists_cons_of_ne_nil inhabited
  obtain ⟨tail, joined⟩ := Line.joinWords_cons word later gaps
  obtain ⟨filled, ordinary⟩ := isWords word List.mem_cons_self
  obtain ⟨start, more, rfl⟩ := List.exists_cons_of_ne_nil filled
  rw [joined] at first
  cases Option.some.inj first
  exact ordinary _ List.mem_cons_self

theorem not_startsWithLineEnd_of_head {text : List Char}
    (other : ∀ char ∈ text.head?, char ≠ '\n' ∧ char ≠ '\r') : ¬StartsWithLineEnd text := by
  rintro ⟨lineEnd, rest, rfl⟩
  cases lineEnd with
  | lf => exact (other '\n' rfl).1 rfl
  | crlf => exact (other '\r' rfl).2 rfl

section Outlines

variable {rest : List Char}

theorem outlineFrom_word {word : List Char} (isWord : IsWord word)
    (stops : StopsRun (fun char => !isSpecial char) rest) :
    outlineFrom (lexemes (word ++ rest)) =
      { outlineFrom (lexemes rest) with line := word :: (outlineFrom (lexemes rest)).line } := by
  have cut := @lexemes_append (.text word) rest (.text isWord.1 isWord.2 stops)
  exact congrArg outlineFrom cut

theorem outlineFrom_blanks (count : Nat) (stops : StopsRun isBlank rest) :
    outlineFrom (lexemes (List.replicate count ' ' ++ rest)) = outlineFrom (lexemes rest) := by
  cases count with
  | zero => rfl
  | succ count =>
      have blanks : ∀ char ∈ List.replicate (count + 1) ' ', isBlank char := fun char member => by
        rw [List.eq_of_mem_replicate member]
        rfl
      have cut := @lexemes_append (.blank (List.replicate (count + 1) ' ')) rest
        (.blank (List.cons_ne_nil _ _) blanks stops)
      exact (congrArg outlineFrom cut :)

theorem outlineFrom_lineFeed (stops : ¬StartsWithLineEnd rest) :
    outlineFrom (lexemes ('\n' :: rest)) =
      ⟨[], consInhabited (outlineFrom (lexemes rest)).line (outlineFrom (lexemes rest)).lines,
        (outlineFrom (lexemes rest)).paragraphs⟩ := by
  have cut := lexemes_append (Lexeme.CutBefore.lineBreak .lf stops)
  exact congrArg outlineFrom cut

theorem outlineFrom_lineFeeds {count : Nat} (positive : 0 < count)
    (stops : ¬StartsWithLineEnd rest) :
    outlineFrom (lexemes ('\n' :: (List.replicate count '\n' ++ rest))) =
      ⟨[], [], outline (lexemes rest)⟩ := by
  obtain ⟨more, rfl⟩ := Nat.exists_eq_succ_of_ne_zero (Nat.pos_iff_ne_zero.mp positive)
  have feeds : (List.replicate more LineEnd.lf).flatMap LineEnd.spelling =
      List.replicate more '\n' := by
    rw [List.flatMap_replicate, LineEnd.spelling]
    simp
  have cut := lexemes_append
    (Lexeme.CutBefore.paragraphBreak .lf .lf (List.replicate more .lf) stops)
  rw [Lexeme.spelling, feeds] at cut
  exact congrArg outlineFrom cut

theorem outlineFrom_joinWords {words : List (List Char)} {gaps : List Nat}
    (wellSet : gaps.length + 1 = words.length) (spaced : ∀ gap ∈ gaps, 0 < gap)
    (isWords : ∀ word ∈ words, IsWord word)
    (stops : StopsRun (fun char => !isSpecial char) rest) :
    outlineFrom (lexemes (Line.joinWords words gaps ++ rest)) =
      { outlineFrom (lexemes rest) with line := words ++ (outlineFrom (lexemes rest)).line } := by
  fun_induction Line.joinWords words gaps with
  | case1 => simp at wellSet
  | case2 word => exact outlineFrom_word (isWords word List.mem_cons_self) stops
  | case3 word later more =>
      exact absurd (List.length_eq_zero_iff.mp (Nat.succ.inj wellSet).symm) more
  | case4 word later gap gaps more ih =>
      obtain ⟨first, others⟩ := List.forall_mem_cons.mp isWords
      obtain ⟨positive, spacedLater⟩ := List.forall_mem_cons.mp spaced
      have next := ih (Nat.succ.inj wellSet) spacedLater others
      have stopsBlank : StopsRun isBlank (Line.joinWords later gaps ++ rest) := by
        intro char found
        exact isBlank_of_ordinary (ordinary_of_head?_joinWords more others gaps rest found)
      have stopsWord : StopsRun (fun char => !isSpecial char)
          (List.replicate gap ' ' ++ (Line.joinWords later gaps ++ rest)) := by
        intro char found
        rw [List.head?_append, List.head?_replicate, if_neg (Nat.ne_of_gt positive)] at found
        cases Option.some.inj found
        rfl
      rw [List.append_assoc, List.append_assoc, outlineFrom_word first stopsWord,
        outlineFrom_blanks gap stopsBlank, next]
      rfl

theorem outlineFrom_line {line : Line} (legible : line.Legible) :
    outlineFrom (lexemes (line.render ++ '\n' :: rest)) =
      { outlineFrom (lexemes ('\n' :: rest)) with
        line := line.words ++ (outlineFrom (lexemes ('\n' :: rest))).line } := by
  have inhabited := legible.wellSet.words_ne_nil
  have stopsBlank : StopsRun isBlank (Line.joinWords line.words line.gaps ++ '\n' :: rest) :=
    fun char found => isBlank_of_ordinary
      (ordinary_of_head?_joinWords inhabited legible.words line.gaps _ found)
  have stops : StopsRun (fun char => !isSpecial char) ('\n' :: rest) := by
    intro char found
    cases Option.some.inj found
    rfl
  rw [Line.render, List.append_assoc, outlineFrom_blanks _ stopsBlank,
    outlineFrom_joinWords legible.wellSet legible.spaced legible.words stops]

theorem not_startsWithLineEnd_render {line : Line} (legible : line.Legible) (rest : List Char) :
    ¬StartsWithLineEnd (line.render ++ rest) := by
  rw [Line.render, List.append_assoc]
  cases line.indentation with
  | zero =>
      apply not_startsWithLineEnd_of_head
      intro char found
      have ordinary := ordinary_of_head?_joinWords legible.wellSet.words_ne_nil legible.words
        line.gaps rest found
      constructor <;> rintro rfl <;> exact absurd ordinary (by decide)
  | succ count =>
      apply not_startsWithLineEnd_of_head
      intro char found
      cases Option.some.inj found
      decide

end Outlines

/-- The lines of a paragraph are read back as the words on them. -/
theorem outlineFrom_set {line : Line} {lines : List Line}
    (legible : ∀ other ∈ line :: lines, other.Legible) {rest : List Char}
    {paragraphs : List (List (List (List Char)))}
    (ended : outlineFrom (lexemes ('\n' :: rest)) = ⟨[], [], paragraphs⟩) :
    outlineFrom (lexemes (printed ((line :: lines).map Line.render) ++ rest)) =
      ⟨line.words, lines.map Line.words, paragraphs⟩ := by
  induction lines generalizing line with
  | nil =>
      have first := legible line List.mem_cons_self
      rw [List.map_singleton, printed_cons, List.append_assoc, List.cons_append,
        outlineFrom_line first, printed, List.flatMap_nil, List.nil_append, ended]
      simp
  | cons next lines ih =>
      obtain ⟨first, later⟩ := List.forall_mem_cons.mp legible
      have nextLegible := later next List.mem_cons_self
      have stops : ¬StartsWithLineEnd (printed ((next :: lines).map Line.render) ++ rest) := by
        rw [List.map_cons, printed_cons, List.append_assoc]
        exact not_startsWithLineEnd_render nextLegible _
      rw [List.map_cons, printed_cons, List.append_assoc, List.cons_append,
        outlineFrom_line first, outlineFrom_lineFeed stops, ih later]
      simp [consInhabited_of_ne_nil nextLegible.wellSet.words_ne_nil]

theorem texts_set (settings : Settings) (untouched : Bool) (set : List Line)
    (sets : List (List Line)) :
    (setRows settings untouched (set :: sets)).map Row.text =
      (between settings untouched).skips.map Row.text ++
        (set.map Line.render ++ (setRows settings false sets).map Row.text) := by
  rw [setRows, List.map_append, List.map_append, List.map_map, List.append_assoc]
  rfl

/-- The lines of paragraphs with empty lines between them are read back as the words on them. -/
theorem outline_sets {settings : Settings} (spaced : 0 < settings.parSkip) {set : List Line}
    {sets : List (List Line)} (legible : LegibleSets (set :: sets)) :
    outline (lexemes
        (printed (set.map Line.render ++ (setRows settings false sets).map Row.text))) =
      (set :: sets).map (List.map Line.words) := by
  induction sets generalizing set with
  | nil =>
      obtain ⟨filled, lines⟩ := legible set List.mem_cons_self
      obtain ⟨line, others, rfl⟩ := List.exists_cons_of_ne_nil filled
      have ended : outlineFrom (lexemes ['\n']) = ⟨[], [], []⟩ := by
        rw [outlineFrom_lineFeed (not_startsWithLineEnd_of_head (by simp)), lexemes_nil]
        rfl
      have read := outlineFrom_set lines ended
      rw [List.append_nil] at read
      rw [setRows, List.map_nil, List.append_nil, outline, read, OpenOutline.close,
        consInhabited_of_ne_nil (lines line List.mem_cons_self).wellSet.words_ne_nil]
      rfl
  | cons next sets ih =>
      obtain ⟨⟨filled, lines⟩, later⟩ := List.forall_mem_cons.mp legible
      obtain ⟨line, others, rfl⟩ := List.exists_cons_of_ne_nil filled
      obtain ⟨nextFilled, nextLines⟩ := later next List.mem_cons_self
      have skips : (between settings false).skips.map Row.text =
          List.replicate settings.parSkip [] := by
        simp [Composer.skips, between, Row.text]
      have stops : ¬StartsWithLineEnd
          (printed (next.map Line.render ++ (setRows settings false sets).map Row.text)) := by
        obtain ⟨first, more, rfl⟩ := List.exists_cons_of_ne_nil nextFilled
        rw [List.map_cons, List.cons_append, printed_cons]
        exact not_startsWithLineEnd_render (nextLines first List.mem_cons_self) _
      have ended := outlineFrom_lineFeeds spaced stops
      rw [ih later, ← printed_skips, ← printed_append, ← skips, ← texts_set] at ended
      rw [printed_append, outline, outlineFrom_set lines ended, OpenOutline.close,
        consInhabited_of_ne_nil (lines line List.mem_cons_self).wellSet.words_ne_nil]
      rfl

/-- **Printed paragraphs are read back as the words on their lines.** -/
theorem outline_printed {settings : Settings} (spaced : 0 < settings.parSkip)
    {sets : List (List Line)} (legible : LegibleSets sets) :
    outline (lexemes (printed ((setRows settings true sets).map Row.text))) =
      sets.map (List.map Line.words) := by
  cases sets with
  | nil =>
      rw [setRows, List.map_nil, printed, List.flatMap_nil, lexemes_nil]
      rfl
  | cons set sets =>
      have skips : (between settings true).skips = [] := by
        simp [Composer.skips, between]
      rw [texts_set, skips, List.map_nil, List.nil_append, outline_sets spaced legible]

end Galley
