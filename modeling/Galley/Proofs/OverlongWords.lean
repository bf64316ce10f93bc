import Galley.Proofs.ComposedWords

/-! # Words that are too wide for a line

A word that is too wide for the line that it starts is finished on a line of its own at once if no
words wait before it. Otherwise it waits behind them, and then it shares its line with a later word
exactly if that word is added while lines are not filled or while both have room on the line. So it
stands alone as long as the settings leave it too wide
(`Galley.Composer.overlong_words_stand_alone`), but not whatever settings change
(`Galley.Composer.overlong_word_shares_line`).
-/

namespace Galley

/-- The line that holds the word of a given number among the words of rows, counted from zero. -/
def lineHolding? : List Row → Nat → Option Line
  | [], _ => none
  | row :: rest, number =>
      if number < row.words.length then row.line? else lineHolding? rest (number - row.words.length)

section Rows

variable {first second rows : List Row} {number : Nat} {line : Line}

/-- Rows that have fewer words are passed over. -/
theorem lineHolding?_append_of_le (passed : (first.flatMap Row.words).length ≤ number) :
    lineHolding? (first ++ second) number =
      lineHolding? second (number - (first.flatMap Row.words).length) := by
  induction first generalizing number with
  | nil => rfl
  | cons row rest ih =>
      rw [List.flatMap_cons, List.length_append] at passed ⊢
      rw [List.cons_append, lineHolding?, if_neg (by omega), ih (by omega), Nat.sub_sub]

theorem lineHolding?_append_of_some (held : lineHolding? first number = some line) :
    lineHolding? (first ++ second) number = some line := by
  induction first generalizing number with
  | nil => cases held
  | cons row rest ih =>
      rw [lineHolding?] at held
      rw [List.cons_append, lineHolding?]
      split
      · rename_i within
        rwa [if_pos within] at held
      · rename_i beyond
        rw [if_neg beyond] at held
        exact ih held

/-- As long as no line holds a word, all words of the rows come before it. -/
theorem length_le_of_lineHolding? (absent : lineHolding? rows number = none) :
    (rows.flatMap Row.words).length ≤ number := by
  induction rows generalizing number with
  | nil => exact Nat.zero_le _
  | cons row rest ih =>
      rw [lineHolding?] at absent
      rw [List.flatMap_cons, List.length_append]
      split at absent
      · rename_i within
        cases row with
        | skip => exact absurd within (Nat.not_lt_zero _)
        | line line => cases absent
      · have later := ih absent
        omega

end Rows

namespace Composer

variable {composer : Composer} {word : List Char} {line : Line}

/-- A line that is set holds the first of the words that waited. -/
theorem lineHolding?_emit (composer : Composer) (blanks : Nat) (waiting : composer.words ≠ []) :
    lineHolding? (composer.emit blanks).2 0 =
      some (.spread composer.indentation blanks composer.words) := by
  have passed : (composer.skips.flatMap Row.words).length = 0 := by
    rw [flatMap_words_skips, List.length_nil]
  rw [emit, lineHolding?_append_of_le (Nat.le_of_eq passed), passed]
  exact if_pos (List.length_pos_iff.mpr waiting)

/-! ## Words that wait -/

/-- A word goes on the line being built: lines are not filled, or it has room there. -/
def Takes (composer : Composer) (word : List Char) : Prop :=
  composer.settings.fill = false ∨
    composer.solidWidth + word.length + composer.words.length ≤ composer.settings.textWidth

instance (composer : Composer) (word : List Char) : Decidable (composer.Takes word) :=
  inferInstanceAs (Decidable (_ ∨ _))

/-- What becomes of words that wait: they wait on and no row is finished, or the first line that is
finished has just these words. -/
def Passes (words : List (List Char)) (after : Composer × List Row) : Prop :=
  (after.2 = [] ∧ after.1.words = words) ∨
    ∃ line, lineHolding? after.2 0 = some line ∧ line.words = words

theorem passes_idle (composer : Composer) : Passes composer.words (composer, []) :=
  Or.inl ⟨rfl, rfl⟩

theorem passes_emit (composer : Composer) (blanks : Nat) (waiting : composer.words ≠ []) :
    Passes composer.words (composer.emit blanks) :=
  Or.inr ⟨_, composer.lineHolding?_emit blanks waiting, rfl⟩

theorem passes_emitPlain (composer : Composer) (waiting : composer.words ≠ []) :
    Passes composer.words composer.emitPlain := by
  rw [emitPlain, if_neg waiting]
  exact composer.passes_emit _ waiting

theorem addWord_of_takes (waiting : composer.words ≠ []) (takes : composer.Takes word) :
    composer.addWord word = (composer.push word, []) := by
  unfold addWord
  obtain unfilled | room := takes
  · rw [if_pos (by simp [unfilled])]
  · rw [if_neg waiting, if_neg (Nat.not_lt.mpr room), ite_self]

theorem addWord_of_not_takes (waiting : composer.words ≠ []) (refuses : ¬composer.Takes word) :
    composer.addWord word = ((composer.emit composer.filledBlanks).1.push word,
      (composer.emit composer.filledBlanks).2) := by
  obtain ⟨filled, overfull⟩ := not_or.mp refuses
  unfold addWord
  rw [if_neg (by simpa using filled), if_neg waiting, if_pos (Nat.lt_of_not_le overfull)]

/-- A word that is added joins the words that wait, or they are finished without it. -/
theorem passes_addWord (waiting : composer.words ≠ []) (word : List Char) :
    Passes (composer.words ++ [word].filter (composer.Takes ·)) (composer.addWord word) := by
  by_cases takes : composer.Takes word
  · rw [addWord_of_takes waiting takes, List.filter_cons_of_pos (by simpa using takes)]
    exact passes_idle _
  · rw [addWord_of_not_takes waiting takes, List.filter_cons_of_neg (by simpa using takes),
      List.filter_nil, List.append_nil]
    exact Or.inr ⟨_, composer.lineHolding?_emit _ waiting, rfl⟩

/-- The words that wait, and behind them those that an action puts on their line. -/
def gathered (composer : Composer) (action : Action) : List (List Char) :=
  composer.words ++ (action.finishes composer.word).filter (composer.Takes ·)

theorem passes_finishWord (waiting : composer.words ≠ []) :
    Passes (composer.gathered .finishWord) composer.finishWord := by
  unfold finishWord
  split
  · rename_i empty
    simpa [gathered, Action.finishes, empty] using composer.passes_idle
  · rename_i inhabited
    rw [gathered, Action.finishes, if_neg inhabited]
    exact @passes_addWord { composer with word := [] } waiting composer.word

/-- If words wait until the paragraph ends, the line that they are on is finished then. -/
theorem Passes.endParagraph {words : List (List Char)} (passes : Passes words composer.finishWord)
    (waiting : words ≠ []) : Passes words composer.endParagraph := by
  refine Or.inr ?_
  obtain ⟨quiet, same⟩ | ⟨line, first, same⟩ := passes
  · subst same
    have closed := composer.finishWord.1.lineHolding?_emit (composer.finishWord.1.words.length - 1)
      waiting
    rw [Composer.endParagraph, quiet, emitPlain, if_neg waiting]
    exact ⟨_, closed, rfl⟩
  · exact ⟨line, lineHolding?_append_of_some first, same⟩

/-- **One step.** Words that wait are gathered with those that an action puts on their line, and
then they wait on together or are finished together. -/
theorem passes_step (waiting : composer.words ≠ []) (action : Action) :
    Passes (composer.gathered action) (composer.step action) := by
  have alone {action : Action} (none : action.finishes composer.word = []) :
      composer.gathered action = composer.words := by
    rw [gathered, none, List.filter_nil, List.append_nil]
  cases action with
  | addText | change =>
      rw [alone rfl]
      exact Or.inl ⟨rfl, rfl⟩
  | finishWord => exact passes_finishWord waiting
  | addWord word => exact passes_addWord waiting word
  | endLine =>
      rw [alone rfl, step, endLine]
      split
      · exact composer.passes_idle
      · exact composer.passes_emitPlain waiting
  | endParagraph =>
      exact (passes_finishWord waiting).endParagraph (List.append_ne_nil_of_left_ne_nil waiting _)

theorem run_cons_of_quiet {action : Action} (quiet : (composer.step action).2 = [])
    (rest : List Action) :
    composer.run (action :: rest) = (composer.step action).1.run rest := by
  rw [run, quiet]
  rfl

/-- Words that wait stand in front of their line, whatever is put there later. -/
theorem Passes.isPrefix {words : List (List Char)} {action : Action} {rest : List Action}
    (passes : Passes words (composer.step action)) (waiting : words ≠ [])
    (held : lineHolding? (composer.run (action :: rest)).2 0 = some line) :
    words <+: line.words := by
  induction rest generalizing composer action words with
  | nil =>
      obtain ⟨quiet, -⟩ | ⟨other, first, rfl⟩ := passes
      · rw [run_cons_of_quiet quiet] at held
        cases held
      · cases held.symm.trans (lineHolding?_append_of_some first)
        exact List.prefix_refl _
  | cons next rest ih =>
      obtain ⟨quiet, rfl⟩ | ⟨other, first, rfl⟩ := passes
      · rw [run_cons_of_quiet quiet] at held
        have starts : (composer.step action).1.words <+: (composer.step action).1.gathered next :=
          List.prefix_append _ _
        exact starts.trans (ih (passes_step waiting next) (starts.ne_nil waiting) held)
      · cases held.symm.trans (lineHolding?_append_of_some first)
        exact List.prefix_refl _

theorem words_isPrefix (waiting : composer.words ≠ []) {actions : List Action}
    (held : lineHolding? (composer.run actions).2 0 = some line) :
    composer.words <+: line.words := by
  cases actions with
  | nil => cases held
  | cons action rest =>
      have starts : composer.words <+: composer.gathered action := List.prefix_append _ _
      exact starts.trans ((passes_step waiting action).isPrefix (starts.ne_nil waiting) held)

/-- An action puts a word on the line being built. -/
def Joins (composer : Composer) (action : Action) : Prop :=
  ∃ word ∈ action.finishes composer.word, composer.Takes word

theorem gathered_eq_iff {action : Action} :
    composer.gathered action = composer.words ↔ ¬composer.Joins action := by
  simp [gathered, Joins]

/-- What holds of each action after the actions before it holds of the first action after none, and
of the others. -/
theorem forall_split_cons {claim : List Action → Action → Prop} {action : Action}
    {rest : List Action} :
    (∀ part next more, action :: rest = part ++ next :: more → claim part next) ↔
      claim [] action ∧
        ∀ part next more, rest = part ++ next :: more → claim (action :: part) next := by
  constructor
  · intro all
    exact ⟨all [] action rest rfl, fun part next more split => all _ next more (congrArg _ split)⟩
  · rintro ⟨first, later⟩ part next more split
    cases part with
    | nil =>
        cases split
        exact first
    | cons head part =>
        cases split
        exact later part next more rfl

/-- **Words that wait are alone on their line** exactly if no action puts a word there before it is
finished. -/
theorem words_eq_iff (waiting : composer.words ≠ []) {actions : List Action}
    (held : lineHolding? (composer.run actions).2 0 = some line) :
    line.words = composer.words ↔
      ∀ part action rest, actions = part ++ action :: rest →
        lineHolding? (composer.run part).2 0 = none → ¬(composer.run part).1.Joins action := by
  induction actions generalizing composer with
  | nil => cases held
  | cons action rest ih =>
      refine Iff.trans ?_ forall_split_cons.symm
      have passes := passes_step waiting action
      by_cases joins : composer.Joins action
      · refine iff_of_false (fun same => ?_) fun unjoined => unjoined.1 rfl joins
        have starts : composer.words <+: composer.gathered action := List.prefix_append _ _
        have whole := passes.isPrefix (starts.ne_nil waiting) held
        rw [same] at whole
        exact gathered_eq_iff.mp (whole.eq_of_length_le starts.length_le) joins
      · rw [gathered_eq_iff.mpr joins] at passes
        obtain ⟨quiet, same⟩ | ⟨other, first, same⟩ := passes
        · simp only [run_cons_of_quiet quiet] at held ⊢
          have later := ih (same ▸ waiting) held
          rw [same] at later
          exact later.trans ⟨fun unjoined => ⟨fun _ => joins, unjoined⟩, And.right⟩
        · have found (part : List Action) :
              lineHolding? (composer.run (action :: part)).2 0 = some other :=
            lineHolding?_append_of_some first
          cases held.symm.trans (found rest)
          refine iff_of_true same ⟨fun _ => joins, fun part next more _ absent => ?_⟩
          exact absurd ((found part).symm.trans absent) nofun

/-! ## A word that is too wide -/

/-- A word is added while lines are filled and starts a line for which it is too wide: no words
wait, or they leave it no room. -/
structure Overlong (composer : Composer) (word : List Char) : Prop where
  fill : composer.settings.fill = true
  starts : composer.words = [] ∨ ¬composer.Takes word
  wide : composer.settings.textWidth <
    composer.settings.effectiveIndentation (composer.opensParagraph && composer.words.isEmpty) +
      word.length

/-- The line on which a word stands that is added before other actions, once it is finished. -/
def lineOf? (composer : Composer) (word : List Char) (actions : List Action) : Option Line :=
  lineHolding? (composer.run (.addWord word :: actions)).2 composer.words.length

/-- A word shares its line with no other and stands there as a whole. -/
def StandsAlone (composer : Composer) (word : List Char) (actions : List Action) : Prop :=
  ∀ line, composer.lineOf? word actions = some line →
    line.words = [word] ∧ line.render = List.replicate line.indentation ' ' ++ word

/-- A composer before an action that comes after a word was added and the actions of `part`. -/
def afterWord (composer : Composer) (word : List Char) (part : List Action) : Composer :=
  (composer.run (.addWord word :: part)).1

/-- What becomes of a word that is too wide. It is finished at once and stands alone, whatever
follows, if no words wait before it. Otherwise it is finished by the end of the paragraph at the
latest, as a whole and first on its line, and it stands alone if it is still too wide at each action
up to the end of its line. All in all it does exactly if no action puts a word beside it. -/
structure KeepsApart (composer : Composer) (word : List Char) : Prop where
  at_once : composer.words = [] → ∀ actions,
    (composer.lineOf? word actions).isSome ∧ composer.StandsAlone word actions
  finished : ∀ part rest, (composer.lineOf? word (part ++ .endParagraph :: rest)).isSome
  first : ∀ actions line, composer.lineOf? word actions = some line → [word] <+: line.words
  while_overlong : ∀ actions, (∀ part action rest, actions = part ++ action :: rest →
      composer.lineOf? word part = none →
      (composer.afterWord word part).settings.fill = true ∧
        (composer.afterWord word part).settings.textWidth <
          (composer.afterWord word part).indentation + word.length) →
    composer.StandsAlone word actions
  exactly : ∀ actions line, composer.lineOf? word actions = some line →
    (line.words = [word] ↔ ∀ part action rest, actions = part ++ action :: rest →
      composer.lineOf? word part = none → ¬(composer.afterWord word part).Joins action)

/-- The two ways in which a word that is too wide is added. -/
theorem Overlong.addWord_eq (overlong : composer.Overlong word) :
    (composer.words = [] ∧ composer.addWord word = (composer.push word).emit 0) ∨
    (composer.words ≠ [] ∧ composer.addWord word =
      ((composer.emit composer.filledBlanks).1.push word,
        (composer.emit composer.filledBlanks).2)) := by
  by_cases empty : composer.words = []
  · have wide : composer.settings.textWidth < composer.solidWidth + word.length := by
      simpa [solidWidth, indentation, empty] using overlong.wide
    refine Or.inl ⟨empty, ?_⟩
    rw [addWord, if_neg (by simpa using overlong.fill), if_pos empty, if_pos wide]
  · exact Or.inr ⟨empty, addWord_of_not_takes empty (overlong.starts.resolve_left empty)⟩

/-- A word that is too wide and comes first is finished at once. -/
theorem Overlong.lineOf?_of_first (overlong : composer.Overlong word) (empty : composer.words = [])
    (actions : List Action) :
    composer.lineOf? word actions = some (.spread composer.indentation 0 [word]) := by
  obtain ⟨-, added⟩ | ⟨waiting, -⟩ := overlong.addWord_eq
  · have first := (composer.push word).lineHolding?_emit 0 (by simp [push])
    rw [lineOf?, run, step, added, empty, List.length_nil, lineHolding?_append_of_some first, push,
      empty]
    rfl
  · exact absurd empty waiting

/-- Otherwise it waits for what is done next, and the words before it are on other lines. -/
theorem Overlong.exists_waiting (overlong : composer.Overlong word)
    (waiting : composer.words ≠ []) :
    ∃ next : Composer, next.words = [word] ∧
      (∀ part, composer.afterWord word part = (next.run part).1) ∧
      ∀ part, composer.lineOf? word part = lineHolding? (next.run part).2 0 := by
  obtain ⟨empty, -⟩ | ⟨-, added⟩ := overlong.addWord_eq
  · exact absurd empty waiting
  · refine ⟨(composer.emit composer.filledBlanks).1.push word, rfl, fun part => ?_, fun part => ?_⟩
    · rw [afterWord, run, step, added]
    · have passed : (composer.emit composer.filledBlanks).2.flatMap Row.words = composer.words := by
        simp [emit, flatMap_words_skips, Row.words, Line.spread]
      have before := Nat.le_of_eq (congrArg List.length passed)
      rw [lineOf?, run, step, added, lineHolding?_append_of_le before, passed, Nat.sub_self]

theorem Overlong.alone_iff (overlong : composer.Overlong word) {actions : List Action}
    (held : composer.lineOf? word actions = some line) :
    line.words = [word] ↔ ∀ part action rest, actions = part ++ action :: rest →
      composer.lineOf? word part = none → ¬(composer.afterWord word part).Joins action := by
  by_cases empty : composer.words = []
  · have first := overlong.lineOf?_of_first empty
    cases held.symm.trans (first actions)
    exact iff_of_true rfl fun part _ _ _ absent => absurd ((first part).symm.trans absent) nofun
  · obtain ⟨next, alone, after, lineOf⟩ := overlong.exists_waiting empty
    rw [lineOf] at held
    simp only [after, lineOf]
    rw [← alone]
    exact words_eq_iff (by simp [alone]) held

/-- It is the first word on its line. -/
theorem Overlong.isPrefix_words (overlong : composer.Overlong word) {actions : List Action}
    (held : composer.lineOf? word actions = some line) : [word] <+: line.words := by
  by_cases empty : composer.words = []
  · cases held.symm.trans (overlong.lineOf?_of_first empty actions)
    exact List.prefix_refl _
  · obtain ⟨next, alone, -, lineOf⟩ := overlong.exists_waiting empty
    rw [← alone]
    exact next.words_isPrefix (by simp [alone]) ((lineOf actions).symm.trans held)

/-- As long as it waits, it is the first word on the line being built. -/
theorem Overlong.exists_words_eq (overlong : composer.Overlong word) {part : List Action}
    (absent : composer.lineOf? word part = none) :
    ∃ more, (composer.afterWord word part).words = word :: more := by
  by_cases empty : composer.words = []
  · exact absurd ((overlong.lineOf?_of_first empty part).symm.trans absent) nofun
  · obtain ⟨next, alone, after, lineOf⟩ := overlong.exists_waiting empty
    rw [lineOf] at absent
    have none := List.eq_nil_of_length_eq_zero (Nat.le_zero.mp (length_le_of_lineHolding? absent))
    have words := (next.delivers_run part).words
    rw [none, alone, List.nil_append] at words
    exact ⟨_, by rw [after, words, List.singleton_append]⟩

/-- It does not wait beyond the end of the paragraph. -/
theorem Overlong.isSome_lineOf? (overlong : composer.Overlong word) (part rest : List Action) :
    (composer.lineOf? word (part ++ .endParagraph :: rest)).isSome := by
  have early : composer.lineOf? word (part ++ [.endParagraph]) ≠ none := by
    intro absent
    obtain ⟨more, words⟩ := overlong.exists_words_eq absent
    have idle := composer.idle_run (.addWord word :: part)
    exact List.cons_ne_nil _ _ (words.symm.trans idle.1)
  obtain ⟨line, held⟩ := Option.ne_none_iff_exists'.mp early
  have split : .addWord word :: (part ++ .endParagraph :: rest) =
      .addWord word :: (part ++ [.endParagraph]) ++ rest := by simp
  rw [lineOf?, split, run_append, lineHolding?_append_of_some held, Option.isSome_some]

/-- A line that starts with a word that is too wide takes no word. -/
theorem not_joins_of_wide {more : List (List Char)} (words : composer.words = word :: more)
    (fill : composer.settings.fill = true)
    (wide : composer.settings.textWidth < composer.indentation + word.length) (action : Action) :
    ¬composer.Joins action := by
  rintro ⟨next, -, unfilled | room⟩
  · exact absurd (fill.symm.trans unfilled) nofun
  · rw [solidWidth, words, List.flatten_cons, List.length_append] at room
    omega

/-- **Words that are too wide stand alone** unless a word is put beside them while they wait. -/
theorem overlong_words_stand_alone (overlong : composer.Overlong word) :
    composer.KeepsApart word where
  at_once empty actions := by
    have first := overlong.lineOf?_of_first empty actions
    refine ⟨by rw [first, Option.isSome_some], fun line held => ?_⟩
    cases held.symm.trans first
    exact ⟨rfl, rfl⟩
  finished := overlong.isSome_lineOf?
  first _ _ held := overlong.isPrefix_words held
  while_overlong actions stays line held := by
    have alone : line.words = [word] := by
      refine (overlong.alone_iff held).mpr fun part action rest split absent => ?_
      obtain ⟨fill, wide⟩ := stays part action rest split absent
      obtain ⟨more, words⟩ := overlong.exists_words_eq absent
      exact not_joins_of_wide words fill wide action
    exact ⟨alone, by rw [Line.render, alone, Line.joinWords]⟩
  exactly _ _ held := overlong.alone_iff held

/-- A word waits on a narrow line, and a word of twelve characters is added. -/
theorem overlong_words_stand_alone_of_second :
    let composer := ((new { Settings.main with textWidth := 10 }).run [.addWord ['a']]).1
    let word := List.replicate 12 'b'
    composer.Overlong word ∧ composer.KeepsApart word := by
  intro composer word
  have overlong : composer.Overlong word := ⟨rfl, by decide, by decide⟩
  exact ⟨overlong, overlong_words_stand_alone overlong⟩

/-- The word of twelve characters starts a line of ten, but lines are no longer filled when the next
word is added, and the two come to stand on one line. -/
theorem overlong_word_shares_line :
    let composer := ((new { Settings.main with textWidth := 10, parIndentation := 0 }).run
      [.addWord ['a']]).1
    let word := List.replicate 12 'b'
    let actions : List Action := [.change (.switch .fill false), .addWord ['c'], .endParagraph]
    composer.Overlong word ∧ composer.lineOf? word actions = some ⟨0, [word, ['c']], [1]⟩ ∧
      ¬composer.StandsAlone word actions := by
  intro composer word actions
  have shared : composer.lineOf? word actions = some ⟨0, [word, ['c']], [1]⟩ := by decide
  refine ⟨⟨rfl, by decide, by decide⟩, shared, fun alone => ?_⟩
  have words := (alone _ shared).1
  exact absurd words (by decide)

end Composer

end Galley
