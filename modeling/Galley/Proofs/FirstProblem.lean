import Galley.Proofs.FormattedLines

/-! # The first problem of a document

A token violates the rules of the markup depending on itself and on whether it stands in the main
text or in an endnote, never on the settings or the text before it. Reading a document stops at the
first violation among its tokens, those of each endnote standing behind its command
(`Galley.Reading.problem_read`), so formatting fails exactly when there is one, and with its problem
(`Galley.format_fails_at_first_violation`).
-/

namespace Galley

/-! ## Violations -/

/-- The integers that are written by one or more ASCII digits after an optional sign. -/
inductive Numeral : List Char → Int → Prop
  | unsigned {digits : List Char} (inhabited : digits ≠ [])
      (ascii : ∀ digit ∈ digits, digit.isDigit) : Numeral digits (digitsValue 0 digits)
  | plus {digits : List Char} (inhabited : digits ≠ [])
      (ascii : ∀ digit ∈ digits, digit.isDigit) : Numeral ('+' :: digits) (digitsValue 0 digits)
  | minus {digits : List Char} (inhabited : digits ≠ [])
      (ascii : ∀ digit ∈ digits, digit.isDigit) : Numeral ('-' :: digits) (-digitsValue 0 digits)

theorem readDigits?_eq_some_iff {text : List Char} {value : Nat} :
    readDigits? text = some value ↔
      text ≠ [] ∧ (∀ digit ∈ text, digit.isDigit) ∧ digitsValue 0 text = value := by
  simp [readDigits?, List.all_eq_true, and_assoc]

theorem readInteger?_eq_some_iff {text : List Char} {value : Int} :
    readInteger? text = some value ↔ Numeral text value := by
  constructor
  · intro read
    unfold readInteger? readNatural? at read
    split at read
    · rename_i digits
      obtain ⟨number, found, rfl⟩ : ∃ number : Nat, readDigits? digits = some number ∧
          -(number : Int) = value := by simpa [Option.bind_eq_some_iff] using read
      obtain ⟨inhabited, ascii, rfl⟩ := readDigits?_eq_some_iff.mp found
      exact .minus inhabited ascii
    · split at read
      · rename_i digits _
        obtain ⟨number, found, rfl⟩ : ∃ number : Nat, readDigits? digits = some number ∧
            (number : Int) = value := by simpa [Option.bind_eq_some_iff] using read
        obtain ⟨inhabited, ascii, rfl⟩ := readDigits?_eq_some_iff.mp found
        exact .plus inhabited ascii
      · obtain ⟨number, found, rfl⟩ : ∃ number : Nat, readDigits? text = some number ∧
            (number : Int) = value := by simpa [Option.bind_eq_some_iff] using read
        obtain ⟨inhabited, ascii, rfl⟩ := readDigits?_eq_some_iff.mp found
        exact .unsigned inhabited ascii
  · intro numeral
    cases numeral with
    | unsigned inhabited ascii =>
        have digits := readDigits?_eq_some_iff.mpr ⟨inhabited, ascii, rfl⟩
        unfold readInteger? readNatural?
        -- A sign is no digit, so the text is read as it stands.
        split
        · exact absurd (ascii '-' List.mem_cons_self) (by decide)
        · split
          · exact absurd (ascii '+' List.mem_cons_self) (by decide)
          · rw [digits]
            rfl
    | plus inhabited ascii =>
        have digits := readDigits?_eq_some_iff.mpr ⟨inhabited, ascii, rfl⟩
        simp [readInteger?, readNatural?, digits]
    | minus inhabited ascii =>
        have digits := readDigits?_eq_some_iff.mpr ⟨inhabited, ascii, rfl⟩
        simp [readInteger?, digits]

theorem readArgumentValue?_eq_some_iff {text : List Char} {value : Int} :
    readArgumentValue? text = some value ↔ Numeral text value ∧ IsArgumentValue value := by
  simp [readArgumentValue?, Option.filter_eq_some_iff, readInteger?_eq_some_iff]

theorem readArgumentValue?_eq_none_iff {text : List Char} :
    readArgumentValue? text = none ↔ ∀ value, Numeral text value → ¬IsArgumentValue value := by
  rw [Option.eq_none_iff_forall_ne_some]
  simp only [ne_eq, readArgumentValue?_eq_some_iff, not_and]

/-- The least number that a measure may be set to, if it is bounded: inside an endnote any number
passes as the height of pages. -/
def Measure.least? (mode : Mode) : Measure → Option Int
  | .textWidth => some 1
  | .textHeight => if mode = .normal then some 1 else none
  | .indentation | .parIndentation | .parSkip => some 0

theorem Measure.check_requirement {mode : Mode} (kind : Measure) {least : Int}
    (bounded : kind.least? mode = some least) (value : Int) :
    kind.requirement.check value =
      if value < least then .error ⟨value, kind.requirement⟩ else .ok value.toNat := by
  have allows : kind.requirement.allows value = decide (least ≤ value) := by
    cases kind with
    | textHeight =>
        simp only [least?] at bounded
        split at bounded
        · cases bounded
          rfl
        · simp at bounded
    | _ =>
        cases bounded
        rfl
  by_cases below : value < least
  · simp [Requirement.check, allows, below]
  · simp [Requirement.check, allows, below, Int.not_lt.mp below]

/-- Whether a command cannot do without an argument. -/
def Command.NeedsArgument : Command → Prop
  | .measure _ | .endnote => True
  | .switch _ _ => False

/-- Where the argument of a command at `start` starts, behind the brace that opens it. -/
def argumentStart (start : Nat) (name : List Char) : Nat :=
  start + 1 + byteLength name + 1

/-- A token violates a rule of the markup in a part of the document, which is a problem about a
range of bytes. -/
inductive Token.Violates (mode : Mode) : Token → Problem → Span → Prop
  | stray (start : Nat) (char : Char) :
      Violates mode ⟨start, .stray char⟩ (.invalidCharacter ⟨[char], start⟩)
        ⟨start, start + char.utf8Size⟩
  | unclosed (start : Nat) (name rest : List Char) :
      Violates mode ⟨start, .unclosed name rest⟩
        (.unterminatedArgument ⟨'\\' :: name ++ ['\x7b'], start⟩) ⟨start, argumentStart start name⟩
  | withoutArgument (start : Nat) {command : Command} (needs : command.NeedsArgument) :
      Violates mode ⟨start, .command command.name.toList none⟩
        (.missingArgument ⟨'\\' :: command.name.toList, start⟩)
        ⟨start, start + 1 + byteLength command.name.toList⟩
  | noInteger (start : Nat) (kind : Measure) {name argument : List Char}
      (named : name = (Command.measure kind).name.toList)
      (unread : ∀ value, Numeral argument value → ¬IsArgumentValue value) :
      Violates mode ⟨start, .command name (some argument)⟩
        (.invalidInteger ⟨'\\' :: name, start⟩ ⟨argument, argumentStart start name⟩)
        ⟨argumentStart start name, argumentStart start name + byteLength argument⟩
  | tooSmall (start : Nat) (kind : Measure) {name argument : List Char} {value least : Int}
      (named : name = (Command.measure kind).name.toList)
      (numeral : Numeral argument value) (inRange : IsArgumentValue value)
      (bounded : kind.least? mode = some least) (below : value < least) :
      Violates mode ⟨start, .command name (some argument)⟩
        (.invalidValue ⟨'\\' :: name, start⟩ ⟨argument, argumentStart start name⟩
          ⟨value, kind.requirement⟩)
        ⟨argumentStart start name, argumentStart start name + byteLength argument⟩
  | nested (start : Nat) {name : List Char} (body : List Char)
      (named : name = Command.endnote.name.toList) (inside : mode = .endnote) :
      Violates mode ⟨start, .command name (some body)⟩ (.nestedEndnote ⟨'\\' :: name, start⟩)
        ⟨start, start + 1 + byteLength name⟩

/-! ## The problem that reading shows -/

/-- The problem of a directive in a part of the document. -/
def Directive.problem? (mode : Mode) : Directive → Option Problem
  | .measure kind value command argument =>
      if ∃ least ∈ kind.least? mode, value < least then
        some (.invalidValue command argument ⟨value, kind.requirement⟩)
      else none
  | .note command _ => if mode = .endnote then some (.nestedEndnote command) else none
  | _ => none

namespace Token

/-- The problem of a token in a part of the document. -/
def problem? (mode : Mode) (token : Token) : Option Problem :=
  match token.directive with
  | .error problem => some problem
  | .ok directive => directive.problem? mode

theorem problem?_of_ok {token : Token} {directive : Directive}
    (asked : token.directive = .ok directive) (mode : Mode) :
    token.problem? mode = directive.problem? mode := by
  rw [problem?, asked]

theorem problem?_of_error {token : Token} {problem : Problem}
    (asked : token.directive = .error problem) (mode : Mode) :
    token.problem? mode = some problem := by
  rw [problem?, asked]

theorem stop_openingPiece (start : Nat) (name : List Char) :
    (openingPiece start name).stop = argumentStart start name := by
  have backslash : '\\'.utf8Size = 1 := by decide
  have brace : '\x7b'.utf8Size = 1 := by decide
  simp [openingPiece, Piece.stop, argumentStart, backslash, brace]
  omega

theorem argumentPiece_eq (start : Nat) (name argument : List Char) :
    argumentPiece start name argument = ⟨argument, argumentStart start name⟩ := by
  rw [argumentPiece, stop_openingPiece]

theorem Violates.problem?_eq {mode : Mode} {token : Token} {problem : Problem} {span : Span}
    (violates : token.Violates mode problem span) : token.problem? mode = some problem := by
  cases violates with
  | stray => rfl
  | unclosed => rfl
  | withoutArgument start needs =>
      rename_i command
      simp only [problem?, directive, Command.ofName?_name, Option.map_none]
      cases command with
      | measure kind => rfl
      | switch kind on => exact needs.elim
      | endnote => rfl
  | noInteger start kind named unread =>
      have silent := readArgumentValue?_eq_none_iff.mpr unread
      simp only [problem?, directive, Command.ofName?_eq_some_iff.mpr named, Option.map_some,
        argumentPiece_eq, commandDirective, silent]
      rfl
  | tooSmall start kind named numeral inRange bounded below =>
      have read := readArgumentValue?_eq_some_iff.mpr ⟨numeral, inRange⟩
      simp only [problem?, directive, Command.ofName?_eq_some_iff.mpr named, Option.map_some,
        argumentPiece_eq, commandDirective, read, Directive.problem?]
      rw [if_pos ⟨_, bounded, below⟩]
      rfl
  | nested start body named inside =>
      simp only [problem?, directive, Command.ofName?_eq_some_iff.mpr named, Option.map_some,
        commandDirective, Directive.problem?, inside, ↓reduceIte]
      rfl

theorem exists_violates_of_measure {mode : Mode} {kind : Measure} {start : Nat}
    {name argument : List Char} {problem : Problem}
    (named : Command.ofName? name = some (.measure kind))
    (shown : problem? mode ⟨start, .command name (some argument)⟩ = some problem) :
    ∃ span, Violates mode ⟨start, .command name (some argument)⟩ problem span := by
  have same := Command.ofName?_eq_some_iff.mp named
  simp only [problem?, directive, named, Option.map_some, argumentPiece_eq, commandDirective]
    at shown
  cases read : readArgumentValue? argument with
  | none =>
      simp only [read] at shown
      cases Option.some.inj shown
      exact ⟨_, .noInteger start kind same (readArgumentValue?_eq_none_iff.mp read)⟩
  | some value =>
      obtain ⟨numeral, inRange⟩ := readArgumentValue?_eq_some_iff.mp read
      simp only [read, Directive.problem?] at shown
      split at shown
      · rename_i low
        obtain ⟨least, bounded, below⟩ := low
        cases Option.some.inj shown
        exact ⟨_, .tooSmall start kind same numeral inRange bounded below⟩
      · simp at shown

theorem exists_violates_of_note {mode : Mode} {start : Nat} {name body : List Char}
    {problem : Problem} (named : Command.ofName? name = some .endnote)
    (shown : problem? mode ⟨start, .command name (some body)⟩ = some problem) :
    ∃ span, Violates mode ⟨start, .command name (some body)⟩ problem span := by
  have same := Command.ofName?_eq_some_iff.mp named
  simp only [problem?, directive, named, Option.map_some, commandDirective, Directive.problem?]
    at shown
  split at shown
  · rename_i inside
    cases Option.some.inj shown
    exact ⟨_, .nested start body same inside⟩
  · simp at shown

theorem exists_violates_of_no_argument {mode : Mode} {start : Nat} {name : List Char}
    {problem : Problem} (shown : problem? mode ⟨start, .command name none⟩ = some problem) :
    ∃ span, Violates mode ⟨start, .command name none⟩ problem span := by
  cases named : Command.ofName? name with
  | none => simp [problem?, directive, named, Directive.problem?] at shown
  | some command =>
      cases Command.ofName?_eq_some_iff.mp named
      simp only [problem?, directive, named, Option.map_none] at shown
      cases command with
      | measure kind =>
          cases Option.some.inj shown
          exact ⟨_, .withoutArgument start trivial⟩
      | switch kind on => simp [commandDirective, Directive.problem?] at shown
      | endnote =>
          cases Option.some.inj shown
          exact ⟨_, .withoutArgument start trivial⟩

theorem exists_violates {mode : Mode} {token : Token} {problem : Problem}
    (shown : token.problem? mode = some problem) : ∃ span, token.Violates mode problem span := by
  obtain ⟨start, unit⟩ := token
  cases unit with
  | stray char =>
      cases Option.some.inj shown
      exact ⟨_, .stray start char⟩
  | unclosed name rest =>
      cases Option.some.inj shown
      exact ⟨_, .unclosed start name rest⟩
  | command name argument =>
      cases argument with
      | none => exact exists_violates_of_no_argument shown
      | some argument =>
          cases named : Command.ofName? name with
          | none => simp [problem?, directive, named, Directive.problem?] at shown
          | some command =>
              cases command with
              | measure kind => exact exists_violates_of_measure named shown
              | switch kind on =>
                  simp [problem?, directive, named, commandDirective, Directive.problem?] at shown
              | endnote => exact exists_violates_of_note named shown
  | _ => simp [problem?, directive, Directive.problem?] at shown

theorem Violates.span_eq {mode : Mode} {token : Token} {problem : Problem} {span : Span}
    (violates : token.Violates mode problem span) : problem.span = span := by
  have backslash : '\\'.utf8Size = 1 := by decide
  cases violates with
  | unclosed start name rest => exact congrArg (Span.mk start) (stop_openingPiece start name)
  | stray => simp [Problem.span, Piece.span, Piece.stop]
  | _ => simp [Problem.span, Piece.span, Piece.stop, backslash, Nat.add_assoc]

theorem problem?_eq_none_iff {mode : Mode} {token : Token} :
    token.problem? mode = none ↔ ∀ problem span, ¬token.Violates mode problem span := by
  constructor
  · intro silent problem span violates
    rw [violates.problem?_eq] at silent
    simp at silent
  · intro clean
    rw [Option.eq_none_iff_forall_ne_some]
    intro problem shown
    obtain ⟨span, violates⟩ := exists_violates shown
    exact clean problem span violates

/-- The tokens of the endnote that a token adds. -/
def noteTokens (token : Token) : List Token :=
  match token.lexeme.noteBody? with
  | some body =>
      Piece.tokens ⟨body, argumentStart token.start Command.endnote.name.toList⟩
  | none => []

theorem noteTokens_of_note {token : Token} {command : Piece} {body : List Token}
    (asked : token.directive = .ok (.note command body)) : token.noteTokens = body := by
  obtain ⟨text, unit, -, rfl⟩ := of_directive_eq_note asked
  rw [noteTokens, Lexeme.noteBody?_eq_some_iff.mpr unit, argumentPiece_eq]

theorem noteTokens_of_plain {token : Token} {directive : Directive}
    (asked : token.directive = .ok directive) (plain : directive.Plain) :
    token.noteTokens = [] := by
  rw [noteTokens, (actions_of_directive asked plain).1]

/-- Number of characters that tokens stand for. -/
def extent (tokens : List Token) : Nat :=
  (tokens.flatMap fun token => token.piece.text).length

theorem extent_cons (token : Token) (rest : List Token) :
    extent (token :: rest) = token.piece.text.length + extent rest := by
  rw [extent, List.flatMap_cons, List.length_append, extent]

/-- The tokens of an endnote stand for less than its command with its argument. -/
theorem extent_noteTokens (token : Token) :
    token.noteTokens = [] ∨ extent token.noteTokens < token.piece.text.length := by
  obtain ⟨start, unit⟩ := token
  cases noted : unit.noteBody? with
  | none => exact Or.inl (by simp [noteTokens, noted])
  | some body =>
      right
      have spelled : extent (noteTokens ⟨start, unit⟩) = body.length := by
        simp only [noteTokens, noted, extent, Piece.flatMap_text_tokens]
      obtain rfl := Lexeme.noteBody?_eq_some_iff.mp noted
      simp only [spelled, piece, Lexeme.spelling, List.length_append, List.length_cons]
      omega

end Token

/-- The tokens of a document in order, each with the part of the document in which it stands. The
tokens of an endnote stand behind its command, those of any other argument are left out. -/
def tokenTree : Mode → List Token → List (Mode × Token)
  | _, [] => []
  | mode, token :: rest =>
      (mode, token) :: (tokenTree .endnote token.noteTokens ++ tokenTree mode rest)
termination_by _ tokens => (Token.extent tokens, tokens.length)
decreasing_by
  · rcases token.extent_noteTokens with none | shorter
    · rw [none]
      exact Prod.Lex.right' _ (Nat.zero_le _) (Nat.succ_pos _)
    · apply Prod.Lex.left
      rw [Token.extent_cons]
      omega
  · apply Prod.Lex.right'
    · rw [Token.extent_cons]
      omega
    · exact Nat.lt_succ_self _

/-- The first problem among tokens and those of their endnotes. -/
def firstProblem? (mode : Mode) (tokens : List Token) : Option Problem :=
  (tokenTree mode tokens).findSome? fun node => node.2.problem? node.1

theorem firstProblem?_nil (mode : Mode) : firstProblem? mode [] = none := by
  rw [firstProblem?, tokenTree, List.findSome?_nil]

theorem firstProblem?_cons (mode : Mode) (token : Token) (rest : List Token) :
    firstProblem? mode (token :: rest) = (token.problem? mode).or
      ((firstProblem? .endnote token.noteTokens).or (firstProblem? mode rest)) := by
  rw [firstProblem?, tokenTree, List.findSome?_cons, List.findSome?_append]
  cases token.problem? mode <;> rfl

namespace Reading

theorem problem_setMeasure (document : Document) (kind : Measure) (value : Int)
    (command argument : Piece) :
    (match document.setMeasure kind value with
      | .ok _ => none
      | .error invalid => some (.invalidValue command argument invalid)) =
      (Directive.measure kind value command argument).problem? document.mode := by
  unfold Document.setMeasure Directive.problem?
  by_cases ignored : document.mode = .endnote ∧ kind = .textHeight
  · have unbounded : kind.least? document.mode = none := by
      rw [ignored.1, ignored.2]
      rfl
    rw [if_pos ignored]
    simp [unbounded]
  · cases bounded : kind.least? document.mode with
    | none =>
        cases kind <;> cases mode : document.mode <;> simp_all [Measure.least?]
    | some least =>
        by_cases below : value < least <;>
          simp [ignored, bounded, kind.check_requirement bounded, below, Except.map]

/-- Whether a directive shows a problem depends on the part of the document alone. -/
theorem problem_obey (reading : Reading) (directive : Directive)
    (known : reading.document.mode = .endnote ∨ directive.Plain) :
    (reading.obey directive).2 = directive.problem? reading.document.mode := by
  cases directive with
  | measure kind value command argument =>
      rw [← problem_setMeasure, obey]
      cases reading.document.setMeasure kind value <;> rfl
  | note command body =>
      rcases known with inside | plain
      · simp [obey, Directive.problem?, inside]
      · exact absurd rfl (plain command body)
  | _ => rfl

theorem problem_readWith_error {follow : Reading → Directive → Reading × Option Problem}
    {reading : Reading} {token : Token} {problem : Problem}
    (asked : token.directive = .error problem) (rest : List Token) :
    (reading.readWith follow (.ofTokens (token :: rest))).2.map Prod.fst = some problem := by
  rw [Script.ofTokens, List.map_cons, asked, readWith]
  rfl

theorem problem_readWith_ok {follow : Reading → Directive → Reading × Option Problem}
    {reading next : Reading} {token : Token} {directive : Directive} {found : Option Problem}
    (asked : token.directive = .ok directive) (followed : follow reading directive = (next, found))
    (rest : List Token) :
    (reading.readWith follow (.ofTokens (token :: rest))).2.map Prod.fst =
      found.or ((next.readWith follow (.ofTokens rest)).2.map Prod.fst) := by
  rw [Script.ofTokens, List.map_cons, asked, readWith, followed]
  cases found <;> rfl

theorem mode_readNote {reading next : Reading} {body : List Token}
    (read : reading.readNote body = (next, none)) : next.document.mode = .normal := by
  simp only [readNote] at read
  split at read
  · simp at read
  · cases read
    rfl

/-- Reading the body of an endnote shows the first problem among its tokens. -/
theorem problem_readBody {tokens : List Token} {reading : Reading}
    (inside : reading.document.mode = .endnote) :
    (reading.readWith obey (.ofTokens tokens)).2.map Prod.fst = firstProblem? .endnote tokens := by
  induction tokens generalizing reading with
  | nil =>
      rw [firstProblem?_nil]
      rfl
  | cons token rest ih =>
      rw [firstProblem?_cons]
      cases asked : token.directive with
      | error problem =>
          rw [problem_readWith_error asked, Token.problem?_of_error asked, Option.some_or]
      | ok directive =>
          have shown := reading.problem_obey directive (Or.inl inside)
          rw [inside, ← Token.problem?_of_ok asked] at shown
          cases followed : reading.obey directive with
          | mk next found =>
              rw [problem_readWith_ok asked followed, ← shown, followed]
              cases found with
              | some problem => rfl
              | none =>
                  have kept := (mode_obey followed).trans inside
                  rw [Token.noteTokens_of_plain asked (plain_of_obey followed), firstProblem?_nil,
                    ih kept]
                  rfl

theorem problem_readNote (reading : Reading) (body : List Token) :
    (reading.readNote body).2 = firstProblem? .endnote body := by
  let opened : Reading :=
    { reading with
      document := reading.document.beginNote
      pending := some reading.document.nextNote }
  have shown : (opened.readWith obey (.ofTokens body)).2.map Prod.fst = _ := problem_readBody rfl
  rw [← shown, readNote]
  split
  · rename_i followed
    rw [followed]
    rfl
  · rename_i followed
    rw [followed]
    rfl

/-- **Reading stops at the first problem** among the tokens of a document. -/
theorem problem_read {reading : Reading} (normal : reading.document.mode = .normal)
    (tokens : List Token) :
    (reading.read (.ofTokens tokens)).2.map Prod.fst = firstProblem? .normal tokens := by
  unfold read
  induction tokens generalizing reading with
  | nil =>
      rw [firstProblem?_nil]
      rfl
  | cons token rest ih =>
      rw [firstProblem?_cons]
      cases asked : token.directive with
      | error problem =>
          rw [problem_readWith_error asked, Token.problem?_of_error asked, Option.some_or]
      | ok directive =>
          rw [Token.problem?_of_ok asked]
          rcases directive.note_or_plain with ⟨command, body, rfl⟩ | plain
          · have shown := reading.problem_readNote body
            have outside : (Directive.note command body).problem? .normal = none := rfl
            rw [Token.noteTokens_of_note asked, ← shown, outside, Option.none_or]
            cases noted : reading.readNote body with
            | mk next found =>
                have followed := (follow_note normal command body).trans noted
                rw [problem_readWith_ok asked followed]
                cases found with
                | some problem => rfl
                | none => rw [ih (mode_readNote noted)]
          · have shown := reading.problem_obey directive (Or.inr plain)
            rw [Token.noteTokens_of_plain asked plain, firstProblem?_nil, Option.none_or, ← normal,
              ← shown]
            cases obeyed : reading.obey directive with
            | mk next found =>
                have followed := (reading.follow_of_plain plain).trans obeyed
                rw [problem_readWith_ok asked followed]
                cases found with
                | some problem => rfl
                | none => rw [ih ((mode_obey obeyed).trans normal), normal]

end Reading

/-! ## Acceptance -/

theorem format_of_firstProblem? {presets : Presets} (valid : presets.Valid) {source : List Char}
    {problem : Problem} (first : firstProblem? .normal (tokens source) = some problem) :
    (format presets source).outcome = .error (.document problem) := by
  rw [outcome_format valid]
  have shown := @Reading.problem_read presets.opened rfl (tokens source)
  rw [first] at shown
  cases read : presets.opened.read (.ofTokens (tokens source)) with
  | mk reading found =>
      rw [read] at shown
      obtain ⟨⟨other, rest⟩, rfl, rfl⟩ := Option.map_eq_some_iff.mp shown
      rfl

theorem format_of_no_problem {presets : Presets} (valid : presets.Valid) {source : List Char}
    (clean : firstProblem? .normal (tokens source) = none) :
    ∃ lines, (format presets source).outcome = .ok lines := by
  rw [outcome_format valid]
  have shown := @Reading.problem_read presets.opened rfl (tokens source)
  rw [clean] at shown
  cases read : presets.opened.read (.ofTokens (tokens source)) with
  | mk reading found =>
      rw [read] at shown
      cases Option.map_eq_none_iff.mp shown
      exact ⟨_, rfl⟩

/-- **The first violation decides.** Formatting with valid presets fails exactly when some token of
the document or of its endnotes violates a rule, and then with the problem of the first violation,
about its range of bytes. -/
theorem format_fails_at_first_violation {presets : Presets} (valid : presets.Valid)
    (source : List Char) :
    ((∃ failure, (format presets source).outcome = .error failure) ↔
      ∃ node ∈ tokenTree .normal (tokens source), ∃ problem span,
        node.2.Violates node.1 problem span) ∧
    ∀ before node after problem span,
      tokenTree .normal (tokens source) = before ++ node :: after →
      (∀ earlier ∈ before, ∀ problem span, ¬earlier.2.Violates earlier.1 problem span) →
      node.2.Violates node.1 problem span →
        (format presets source).outcome = .error (.document problem) ∧
          (Failure.document problem).span = span := by
  refine ⟨⟨?_, ?_⟩, ?_⟩
  · rintro ⟨failure, failed⟩
    cases first : firstProblem? .normal (tokens source) with
    | none =>
        obtain ⟨lines, formatted⟩ := format_of_no_problem valid first
        simp [formatted] at failed
    | some problem =>
        obtain ⟨node, member, shown⟩ := List.exists_of_findSome?_eq_some first
        obtain ⟨span, violates⟩ := Token.exists_violates shown
        exact ⟨node, member, problem, span, violates⟩
  · rintro ⟨node, member, problem, span, violates⟩
    cases first : firstProblem? .normal (tokens source) with
    | none =>
        have silent := List.findSome?_eq_none_iff.mp first node member
        exact absurd violates (Token.problem?_eq_none_iff.mp silent problem span)
    | some problem => exact ⟨_, format_of_firstProblem? valid first⟩
  · intro before node after problem span tree clean violates
    have first : firstProblem? .normal (tokens source) = some problem := by
      refine List.findSome?_eq_some_iff.mpr
        ⟨before, node, after, tree, violates.problem?_eq, fun earlier member => ?_⟩
      exact Token.problem?_eq_none_iff.mpr (clean earlier member)
    exact ⟨format_of_firstProblem? valid first, violates.span_eq⟩

/-- Zero passes as the height of pages inside an endnote, so the paragraph skip behind it is the
first violation. -/
theorem format_fails_at_first_violation_of_note :
    (format .default
      "\\endnote\x7b\\textheight\x7b0\x7d\\parskip\x7b-1\x7d\x7d".toList).outcome =
      .error (.document
        (.invalidValue ⟨"\\parskip".toList, 23⟩ ⟨"-1".toList, 32⟩ ⟨-1, .nonNegative⟩)) := by
  have valid : Presets.default.Valid := Presets.invalid?_eq_none_iff.mp rfl
  let body := "\\textheight\x7b0\x7d\\parskip\x7b-1\x7d".toList
  let note : Token := ⟨0, .command "endnote".toList (some body)⟩
  let height : Token := ⟨9, .command "textheight".toList (some "0".toList)⟩
  let skip : Token := ⟨23, .command "parskip".toList (some "-1".toList)⟩
  have clean : ∀ earlier ∈ [(Mode.normal, note), (.endnote, height)],
      earlier.2.problem? earlier.1 = none := by decide
  have numeral : Numeral "-1".toList (-1) :=
    .minus (List.cons_ne_nil '1' []) (List.forall_mem_singleton.mpr rfl)
  have violates : skip.Violates .endnote
      (.invalidValue ⟨"\\parskip".toList, 23⟩ ⟨"-1".toList, 32⟩ ⟨-1, .nonNegative⟩) ⟨32, 34⟩ :=
    .tooSmall 23 .parSkip rfl numeral (by decide) rfl (by decide)
  refine ((format_fails_at_first_violation valid _).2 _ (.endnote, skip) [] _ _ ?_
    (fun earlier member => Token.problem?_eq_none_iff.mp (clean earlier member)) violates).1
  have top : tokens note.lexeme.spelling = [note] := by decide +kernel
  have inner : note.noteTokens = [height, skip] := by decide +kernel
  have flat : height.noteTokens = [] ∧ skip.noteTokens = [] := by decide
  refine (congrArg (tokenTree .normal) top).trans ?_
  simp [tokenTree, inner, flat]

end Galley
