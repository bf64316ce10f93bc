import Galley.Proofs.ClosedArguments
import Galley.Proofs.CutLexemes
import Galley.Proofs.ShiftedTokens

/-! # Settings that a document opens with

A document that opens with commands for some settings of the main text is formatted as the rest of
it is with these settings in the presets (`Galley.format_opening`).
-/

namespace Galley

/-! ## Replaced settings -/

/-- New values for some of the settings. -/
structure Overrides where
  textWidth : Option Nat
  indentation : Option Nat
  parIndentation : Option Nat
  parSkip : Option Nat
  textHeight : Option Nat
  fill : Option Bool
  justify : Option Bool

/-- Settings in which some values are replaced. -/
def Settings.override (settings : Settings) (overrides : Overrides) : Settings where
  textWidth := overrides.textWidth.getD settings.textWidth
  indentation := overrides.indentation.getD settings.indentation
  parIndentation :=
    (overrides.parIndentation.map fun value => (value : Int)).getD settings.parIndentation
  parSkip := overrides.parSkip.getD settings.parSkip
  textHeight := overrides.textHeight.or settings.textHeight
  fill := overrides.fill.getD settings.fill
  justify := overrides.justify.getD settings.justify

namespace Overrides

/-- The new value of a measure. -/
def measure? (overrides : Overrides) : Measure → Option Nat
  | .textWidth => overrides.textWidth
  | .indentation => overrides.indentation
  | .parIndentation => overrides.parIndentation
  | .parSkip => overrides.parSkip
  | .textHeight => overrides.textHeight

/-- The new position of a switch. -/
def switch? (overrides : Overrides) : Switch → Option Bool
  | .fill => overrides.fill
  | .justify => overrides.justify

/-- A change for each value that is replaced. -/
def changes (overrides : Overrides) : List Change :=
  ([Measure.textWidth, .indentation, .parIndentation, .parSkip, .textHeight].filterMap fun kind =>
      (overrides.measure? kind).map (.measure kind)) ++
    [Switch.fill, .justify].filterMap fun kind => (overrides.switch? kind).map (.switch kind)

theorem measure_mem_changes {overrides : Overrides} {kind : Measure} {value : Nat}
    (member : .measure kind value ∈ overrides.changes) :
    overrides.measure? kind = some value := by
  rcases List.mem_append.mp member with among | among
  · obtain ⟨other, -, found⟩ := List.mem_filterMap.mp among
    obtain ⟨_, given, same⟩ := Option.map_eq_some_iff.mp found
    cases same
    exact given
  · obtain ⟨other, -, found⟩ := List.mem_filterMap.mp among
    obtain ⟨_, -, same⟩ := Option.map_eq_some_iff.mp found
    exact absurd same (by simp)

theorem switch_mem_changes {overrides : Overrides} {kind : Switch} {on : Bool}
    (member : .switch kind on ∈ overrides.changes) : overrides.switch? kind = some on := by
  rcases List.mem_append.mp member with among | among
  · obtain ⟨other, -, found⟩ := List.mem_filterMap.mp among
    obtain ⟨_, -, same⟩ := Option.map_eq_some_iff.mp found
    exact absurd same (by simp)
  · obtain ⟨other, -, found⟩ := List.mem_filterMap.mp among
    obtain ⟨_, given, same⟩ := Option.map_eq_some_iff.mp found
    cases same
    exact given

end Overrides

/-- A change that a command can make: its number is an argument value in the bounds of its
measure. -/
def Change.Settable : Change → Prop
  | .measure kind value => kind.requirement.allows value ∧ IsArgumentValue value
  | .switch _ _ => True

instance (change : Change) : Decidable change.Settable :=
  match change with
  | .measure _ _ => inferInstanceAs (Decidable (_ ∧ _))
  | .switch _ _ => inferInstanceAs (Decidable True)

namespace Settings

/-- Changes can be put into effect in either order unless they set one thing to two values. -/
theorem apply_comm (settings : Settings) {first second : Change}
    (measured : ∀ kind one other, first = .measure kind one → second = .measure kind other →
      one = other)
    (switched : ∀ kind one other, first = .switch kind one → second = .switch kind other →
      one = other) :
    (settings.apply first).apply second = (settings.apply second).apply first := by
  cases first with
  | measure kind one =>
      cases second with
      | measure other another =>
          by_cases same : kind = other
          · subst same
            rw [measured kind one another rfl rfl]
          · cases kind <;> cases other <;> first | rfl | exact absurd rfl same
      | switch other on => cases kind <;> cases other <;> rfl
  | switch kind on =>
      cases second with
      | measure other another => cases kind <;> cases other <;> rfl
      | switch other off =>
          by_cases same : kind = other
          · subst same
            rw [switched kind on off rfl rfl]
          · cases kind <;> cases other <;> first | rfl | exact absurd rfl same

theorem foldl_apply_changes (settings : Settings) (overrides : Overrides)
    (settable : ∀ change ∈ overrides.changes, change.Settable) :
    overrides.changes.foldl apply settings = settings.override overrides := by
  -- Only a paragraph indentation beyond all argument values would be cut down.
  have kept : ∀ value ∈ overrides.parIndentation,
      ((min value maxDistance : Nat) : Int) = value := by
    intro value given
    have member : Change.measure .parIndentation value ∈ overrides.changes := by
      simp [Overrides.changes, Overrides.measure?, Option.mem_def.mp given]
    have bounded := (settable _ member).2.2
    unfold maxDistance
    omega
  obtain ⟨width, indentation, parIndentation, parSkip, height, fill, justify⟩ := overrides
  have replaced : (parIndentation.map fun value => ((min value maxDistance : Nat) : Int)) =
      parIndentation.map fun value => (value : Int) := by
    cases parIndentation with
    | none => rfl
    | some value => exact congrArg some (kept value rfl)
  rw [override, ← replaced]
  cases width <;> cases indentation <;> cases parIndentation <;> cases parSkip <;>
    cases height <;> cases fill <;> cases justify <;> rfl

/-- The order of the changes does not matter, because no two of them set one thing to two
values. -/
theorem foldl_apply_perm (settings : Settings) {overrides : Overrides}
    (settable : ∀ change ∈ overrides.changes, change.Settable) {opening : List Change}
    (order : opening.Perm overrides.changes) :
    opening.foldl apply settings = settings.override overrides := by
  refine Eq.trans (order.foldl_eq' ?_ settings) (settings.foldl_apply_changes overrides settable)
  intro one among other also settings
  apply settings.apply_comm
  · rintro kind value another rfl rfl
    have given := Overrides.measure_mem_changes (order.mem_iff.mp among)
    exact Option.some.inj
      (given.symm.trans (Overrides.measure_mem_changes (order.mem_iff.mp also)))
  · rintro kind on another rfl rfl
    have given := Overrides.switch_mem_changes (order.mem_iff.mp among)
    exact Option.some.inj
      (given.symm.trans (Overrides.switch_mem_changes (order.mem_iff.mp also)))

end Settings

/-! ## Opening commands -/

namespace Change

/-- The command that makes a change. -/
def command : Change → Command
  | .measure kind _ => .measure kind
  | .switch kind on => .switch kind on

/-- The argument of that command: a number in decimals, or nothing. -/
def argument : Change → List Char
  | .measure _ value => (toString value).toList
  | .switch _ _ => []

/-- The command with its argument. -/
def lexeme (change : Change) : Lexeme :=
  .command change.command.name.toList (some change.argument)

end Change

/-- The text of commands that make changes one after the other. -/
def openingText (changes : List Change) : List Char :=
  changes.flatMap fun change => change.lexeme.spelling

theorem readArgumentValue?_decimals {value : Nat} (inRange : IsArgumentValue value) :
    readArgumentValue? (toString value).toList = some (value : Int) := by
  have spelled : (toString value).toList = Nat.toDigits 10 value := by
    rw [Nat.toString_eq_repr, Nat.toList_repr]
  have same : digitsValue 0 (Nat.toDigits 10 value) = value :=
    (Nat.ofDigitChars_eq_foldl ..).symm.trans Nat.ofDigitChars_ten_toDigits
  have numeral : Numeral (Nat.toDigits 10 value) (digitsValue 0 (Nat.toDigits 10 value)) := by
    apply Numeral.unsigned Nat.toDigits_ne_nil
    intro digit member
    exact Nat.isDigit_of_mem_toDigits (by decide) (by decide) member
  rw [same] at numeral
  rw [spelled]
  exact readArgumentValue?_eq_some_iff.mpr ⟨numeral, inRange⟩

namespace Command

theorem isLetter_of_mem_name (command : Command) :
    ∀ char ∈ command.name.toList, isLetter char := by
  have letters : command.name.toList.all isLetter = true := by
    match command with
    | .measure kind => cases kind <;> rfl
    | .switch kind on => cases kind <;> cases on <;> rfl
    | .endnote => rfl
  exact List.all_eq_true.mp letters

theorem name_ne_nil (command : Command) : command.name.toList ≠ [] := by
  match command with
  | .measure kind => cases kind <;> decide
  | .switch kind on => cases kind <;> cases on <;> decide
  | .endnote => decide

end Command

theorem Closes.of_all_plain {text : List Char} (plain : ∀ char ∈ text, IsPlain char) :
    Closes 0 text := by
  induction text with
  | nil => exact .nil
  | cons char text ih =>
      obtain ⟨first, later⟩ := List.forall_mem_cons.mp plain
      exact .plain first (ih later)

namespace Change

theorem closes_argument (change : Change) : Closes 0 change.argument := by
  cases change with
  | measure kind value =>
      apply Closes.of_all_plain
      intro char member
      rw [argument, Nat.toString_eq_repr, Nat.toList_repr] at member
      exact isPlain_of_class Char.isDigit
        (Nat.isDigit_of_mem_toDigits (by decide) (by decide) member) (by decide)
  | switch kind on => exact .nil

/-- A command that makes a change is cut off whatever comes after it. -/
theorem cutBefore_lexeme (change : Change) (rest : List Char) : change.lexeme.CutBefore rest :=
  .command change.command.name_ne_nil change.command.isLetter_of_mem_name
    (change.closes_argument.splitArgument_eq rest)

theorem noteBody?_lexeme (change : Change) : change.lexeme.noteBody? = none := by
  have named : Command.ofName? change.command.name.toList ≠ some .endnote := by
    rw [Command.ofName?_name]
    cases change <;> simp [command]
  exact if_neg named

theorem actions_lexeme {change : Change} (settable : change.Settable) :
    change.lexeme.actions = [.change change] := by
  rw [lexeme, Lexeme.actions, Command.ofName?_name]
  cases change with
  | measure kind value =>
      simp only [command, argument, Option.map_some, Option.getD_some, Command.actions,
        Option.bind_some, readArgumentValue?_decimals settable.2]
      rfl
  | switch kind on => rfl

theorem silent_lexeme {change : Change} (settable : change.Settable) (start : Nat) :
    Token.problem? .normal ⟨start, change.lexeme⟩ = none ∧
      Token.warning? ⟨start, change.lexeme⟩ = none ∧
      Token.noteTokens ⟨start, change.lexeme⟩ = [] := by
  have unnoted : Token.noteTokens ⟨start, change.lexeme⟩ = [] := by
    simp only [Token.noteTokens, change.noteBody?_lexeme]
  cases change with
  | measure kind value =>
      have directive : Token.directive ⟨start, (Change.measure kind value).lexeme⟩ = .ok (.measure
          kind value (Token.commandPiece start (Command.measure kind).name.toList)
          (Token.argumentPiece start (Command.measure kind).name.toList
            (toString value).toList)) := by
        simp only [lexeme, Token.directive, Command.ofName?_name, command, argument,
          Option.map_some, Token.commandDirective, Token.argumentPiece,
          readArgumentValue?_decimals settable.2]
      refine ⟨?_, ?_, unnoted⟩
      · have low : ¬∃ least ∈ kind.least? .normal, (value : Int) < least := by
          rintro ⟨least, bounded, below⟩
          have allowed := settable.1
          cases kind <;> cases bounded <;>
            simp [Measure.requirement, Requirement.allows] at allowed below <;> omega
        rw [Token.problem?_of_ok directive, Directive.problem?, if_neg low]
      · rw [Token.warning?, directive]
        rfl
  | switch kind on =>
      have directive : Token.directive ⟨start, (Change.switch kind on).lexeme⟩ =
          .ok (.switch kind on) := by
        simp only [lexeme, Token.directive, Command.ofName?_name, command, Token.commandDirective]
      refine ⟨?_, ?_, unnoted⟩
      · rw [Token.problem?_of_ok directive]
        rfl
      · rw [Token.warning?, directive]
        rfl

end Change

theorem lexemes_openingText (opening : List Change) (source : List Char) :
    lexemes (openingText opening ++ source) = opening.map Change.lexeme ++ lexemes source := by
  induction opening with
  | nil => rfl
  | cons change opening ih =>
      rw [openingText, List.flatMap_cons, List.append_assoc, ← openingText,
        lexemes_append (change.cutBefore_lexeme _), ih]
      rfl

/-- The tokens of the rest of a document stand behind the commands that open it. -/
theorem tokens_openingText (opening : List Change) (source : List Char) :
    tokens (openingText opening ++ source) =
      Token.place 0 (opening.map Change.lexeme) ++
        (tokens source).map (Token.shift (byteLength (openingText opening))) := by
  rw [tokens, Piece.tokens, lexemes_openingText, Token.place_append, List.flatMap_map]
  rfl

theorem firstProblem?_opening {opening : List Change}
    (settable : ∀ change ∈ opening, change.Settable) (start : Nat) (rest : List Token) :
    firstProblem? .normal (Token.place start (opening.map Change.lexeme) ++ rest) =
      firstProblem? .normal rest := by
  induction opening generalizing start with
  | nil => rfl
  | cons change opening ih =>
      obtain ⟨first, later⟩ := List.forall_mem_cons.mp settable
      obtain ⟨clean, -, unnoted⟩ := Change.silent_lexeme first start
      rw [List.map_cons, Token.place, List.cons_append, firstProblem?_cons, clean, unnoted,
        firstProblem?_nil, Option.none_or, Option.none_or, ih later]

theorem foundWarnings_opening {opening : List Change}
    (settable : ∀ change ∈ opening, change.Settable) (start : Nat) (rest : List Token) :
    foundWarnings .normal (Token.place start (opening.map Change.lexeme) ++ rest) =
      foundWarnings .normal rest := by
  induction opening generalizing start with
  | nil => rfl
  | cons change opening ih =>
      obtain ⟨first, later⟩ := List.forall_mem_cons.mp settable
      obtain ⟨clean, silent, unnoted⟩ := Change.silent_lexeme first start
      rw [List.map_cons, Token.place, List.cons_append, foundWarnings_of_clean clean, silent,
        unnoted, foundWarnings_nil, firstProblem?_nil, if_pos rfl, ih later]
      rfl

/-! ## The main text behind them -/

theorem mainActions_opening {opening : List Change}
    (settable : ∀ change ∈ opening, change.Settable) (units : List Lexeme) :
    mainActions 1 (opening.map Change.lexeme ++ units) =
      opening.map .change ++ mainActions 1 units := by
  induction opening with
  | nil => rfl
  | cons change opening ih =>
      obtain ⟨first, later⟩ := List.forall_mem_cons.mp settable
      rw [List.map_cons, List.cons_append, mainActions, change.noteBody?_lexeme]
      simp only [Change.actions_lexeme first, ih later, List.map_cons, List.cons_append,
        List.nil_append]

theorem noteBodies_opening (opening : List Change) (units : List Lexeme) :
    noteBodies (opening.map Change.lexeme ++ units) = noteBodies units := by
  induction opening with
  | nil => rfl
  | cons change opening ih =>
      rw [noteBodies, List.map_cons, List.cons_append,
        List.filterMap_cons_none change.noteBody?_lexeme, ← noteBodies, ih]

/-- Changes at the start of a stream are changes of what it starts with. -/
theorem Stream.run_changes (settings : Settings) (changes : List Change) :
    (Stream.new settings).run (changes.map .change) =
      .new (changes.foldl Settings.apply settings) := by
  induction changes generalizing settings with
  | nil => rfl
  | cons change changes ih =>
      have one : (Stream.new settings).step (.change change) = .new (settings.apply change) := by
        cases change with
        | measure kind value => cases kind <;> rfl
        | switch kind on => cases kind <;> rfl
      rw [List.map_cons, run_cons, one, ih, List.foldl_cons]

/-- What a command can set is what presets can start with. -/
theorem Presets.Valid.override {presets : Presets} (valid : presets.Valid) {overrides : Overrides}
    (settable : ∀ change ∈ overrides.changes, change.Settable) :
    Presets.Valid { presets with main := presets.main.override overrides } := by
  have positive (kind : Measure) (required : kind.requirement = .positive) :
      ∀ value ∈ overrides.measure? kind, 0 < value := by
    intro value given
    have member : Change.measure kind value ∈ overrides.changes := by
      cases kind <;> simp [Overrides.changes, Option.mem_def.mp given]
    have allowed := (settable _ member).1
    simpa [required, Requirement.allows] using allowed
  intro preset
  cases preset with
  | endnote => exact valid .endnote
  | main =>
      constructor
      · show 0 < overrides.textWidth.getD presets.main.textWidth
        cases width : overrides.textWidth with
        | none => exact (valid .main).1
        | some value => exact positive .textWidth rfl value width
      · intro height given
        have chosen : overrides.textHeight.or presets.main.textHeight = some height := given
        cases bounded : overrides.textHeight with
        | none => exact (valid .main).2 height (by rwa [bounded, Option.none_or] at chosen)
        | some value =>
            rw [bounded, Option.some_or] at chosen
            exact positive .textHeight rfl height (bounded.trans chosen)

/-- **Opening commands are presets.** Formatting a document that opens with commands for settings of
the main text, in any order, fails in the same way or gives the same lines as formatting the rest of
it with these settings in the presets, and it gives the same warnings. Only the places that are
named lie behind the commands. -/
theorem format_opening {presets : Presets} (valid : presets.Valid) {overrides : Overrides}
    (settable : ∀ change ∈ overrides.changes, change.Settable) {opening : List Change}
    (order : opening.Perm overrides.changes) (source : List Char) :
    let offset := byteLength (openingText opening)
    let overridden : Presets := { presets with main := presets.main.override overrides }
    (format presets (openingText opening ++ source)).outcome =
        (format overridden source).outcome.mapError (Failure.shift offset) ∧
      (format presets (openingText opening ++ source)).warnings =
        (format overridden source).warnings.map (Warning.shift offset) := by
  intro offset overridden
  have asked : ∀ change ∈ opening, change.Settable := fun change member =>
    settable change (order.mem_iff.mp member)
  have validOverridden : overridden.Valid := valid.override settable
  have first : firstProblem? .normal (tokens (openingText opening ++ source)) =
      (firstProblem? .normal (tokens source)).map (Problem.shift offset) := by
    rw [tokens_openingText, firstProblem?_opening asked, firstProblem?_shift]
  have pages : composedPages presets (lexemes (openingText opening ++ source)) =
      composedPages overridden (lexemes source) := by
    have settings : opening.foldl Settings.apply presets.main = overridden.main :=
      presets.main.foldl_apply_perm settable order
    have main : mainStream presets (opening.map Change.lexeme ++ lexemes source) =
        mainStream overridden (lexemes source) := by
      rw [mainStream, mainActions_opening asked, List.append_assoc, Stream.run_append,
        Stream.run_changes, settings, mainStream]
    rw [lexemes_openingText, composedPages, main, noteBodies_opening]
    rfl
  constructor
  · rw [outcome_format_eq valid, outcome_format_eq validOverridden, first, pages]
    cases firstProblem? .normal (tokens source) <;> rfl
  · apply Array.toList_inj.mp
    rw [warnings_format valid, tokens_openingText, foundWarnings_opening asked,
      foundWarnings_shift, Array.toList_map, warnings_format validOverridden]

/-- A document that opens with a width and without justification, and then shows a problem. -/
theorem format_opening_of_two :
    let opening := [Change.switch .justify false, .measure .textWidth 20]
    openingText opening = "\\nojustify\x7b\x7d\\textwidth\x7b20\x7d".toList ∧
      (format .default (openingText opening ++ "\\bold a\\indent".toList)).outcome =
        .error (.document (.missingArgument ⟨"\\indent".toList, 33⟩)) ∧
      (format .default (openingText opening ++ "\\bold a\\indent".toList)).warnings =
        #[.unknownCommand ⟨"bold".toList, 27⟩] := by
  intro opening
  let overrides : Overrides := ⟨some 20, none, none, none, none, none, some false⟩
  have valid : Presets.default.Valid := Presets.invalid?_eq_none_iff.mp rfl
  have order : opening.Perm overrides.changes := by decide
  obtain ⟨outcome, warnings⟩ :=
    @format_opening _ valid overrides (by decide) opening order "\\bold a\\indent".toList
  refine ⟨by decide +kernel, outcome.trans ?_, warnings.trans ?_⟩
  · decide +kernel
  · decide +kernel

end Galley
