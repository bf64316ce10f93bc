import Galley.Proofs.FirstProblem

/-! # What a report says

With valid presets, a report depends on its source in three ways: on the first problem among the
tokens, on the unknown commands before it, and on the lexemes that are composed and paged. Neither
problem nor warnings depend on the presets. Main statements: `Galley.outcome_format_eq` and
`Galley.warnings_format`.
-/

namespace Galley

/-! ## Warnings -/

/-- The warning that following a directive gives. -/
def Directive.warning? : Directive → Option Warning
  | .skip name => some (.unknownCommand name)
  | _ => none

/-- The warning of a token. -/
def Token.warning? (token : Token) : Option Warning :=
  token.directive.toOption.bind Directive.warning?

/-- The warnings of tokens, each of which stands in a part of the document, up to the first of them
that shows a problem. -/
def warningsBeforeProblem (nodes : List (Mode × Token)) : List Warning :=
  (nodes.takeWhile fun node => (node.2.problem? node.1).isNone).filterMap fun node =>
    node.2.warning?

theorem warningsBeforeProblem_append (first second : List (Mode × Token)) :
    warningsBeforeProblem (first ++ second) = warningsBeforeProblem first ++
      if (first.findSome? fun node => node.2.problem? node.1) = none then
        warningsBeforeProblem second else [] := by
  induction first with
  | nil => simp [warningsBeforeProblem]
  | cons node first ih =>
      unfold warningsBeforeProblem at ih ⊢
      rw [List.findSome?_cons]
      cases shown : node.2.problem? node.1 with
      | some problem => simp [shown]
      | none => cases warned : node.2.warning? <;> simp [shown, warned, ih]

/-- The warnings of tokens and those of their endnotes up to the first problem. -/
def foundWarnings (mode : Mode) (tokens : List Token) : List Warning :=
  warningsBeforeProblem (tokenTree mode tokens)

theorem foundWarnings_nil (mode : Mode) : foundWarnings mode [] = [] := by
  rw [foundWarnings, tokenTree]
  rfl

theorem foundWarnings_of_problem {mode : Mode} {token : Token} {problem : Problem}
    (shown : token.problem? mode = some problem) (rest : List Token) :
    foundWarnings mode (token :: rest) = [] := by
  rw [foundWarnings, tokenTree, warningsBeforeProblem]
  simp [shown]

theorem foundWarnings_of_clean {mode : Mode} {token : Token}
    (clean : token.problem? mode = none) (rest : List Token) :
    foundWarnings mode (token :: rest) = token.warning?.toList ++
      (foundWarnings .endnote token.noteTokens ++
        if firstProblem? .endnote token.noteTokens = none then foundWarnings mode rest
        else []) := by
  have alone : warningsBeforeProblem [(mode, token)] = token.warning?.toList := by
    cases warned : token.warning? <;> simp [warningsBeforeProblem, clean, warned]
  have silent : ([(mode, token)].findSome? fun node => node.2.problem? node.1) = none := by
    rw [List.findSome?_cons, clean, List.findSome?_nil]
  rw [foundWarnings, tokenTree, ← List.singleton_append, warningsBeforeProblem_append,
    if_pos silent, alone, warningsBeforeProblem_append]
  rfl

namespace Reading

theorem warnings_write (reading : Reading) (text : List Char) :
    (reading.write text).warnings = reading.warnings := by
  unfold write
  split <;> rfl

theorem warnings_obey (reading : Reading) (directive : Directive) :
    (reading.obey directive).1.warnings.toList =
      reading.warnings.toList ++ directive.warning?.toList := by
  cases directive with
  | write text =>
      rw [obey, warnings_write]
      exact (List.append_nil _).symm
  | measure kind value command argument =>
      rw [obey]
      split <;> exact (List.append_nil _).symm
  | skip name => exact Array.toList_push
  | _ => exact (List.append_nil _).symm

theorem warnings_readWith_error {follow : Reading → Directive → Reading × Option Problem}
    {reading : Reading} {token : Token} {problem : Problem}
    (asked : token.directive = .error problem) (rest : List Token) :
    (reading.readWith follow (.ofTokens (token :: rest))).1.warnings = reading.warnings := by
  rw [Script.ofTokens, List.map_cons, asked, readWith]

theorem warnings_readWith_ok {follow : Reading → Directive → Reading × Option Problem}
    {reading next : Reading} {token : Token} {directive : Directive} {found : Option Problem}
    (asked : token.directive = .ok directive) (followed : follow reading directive = (next, found))
    (rest : List Token) :
    (reading.readWith follow (.ofTokens (token :: rest))).1.warnings =
      if found = none then (next.readWith follow (.ofTokens rest)).1.warnings
      else next.warnings := by
  rw [Script.ofTokens, List.map_cons, asked, readWith, followed]
  cases found <;> rfl

/-- A directive that is no endnote warns as its token does, and what comes after it counts only if
it shows no problem. -/
theorem warnings_of_plain {follow : Reading → Directive → Reading × Option Problem}
    {reading next : Reading} {token : Token} {directive : Directive} {found : Option Problem}
    {rest : List Token} (asked : token.directive = .ok directive)
    (followed : follow reading directive = (next, found))
    (obeyed : reading.obey directive = (next, found)) {mode : Mode}
    (shown : token.problem? mode = found) (unnoted : found = none → token.noteTokens = [])
    (later : found = none → (next.readWith follow (.ofTokens rest)).1.warnings.toList =
      next.warnings.toList ++ foundWarnings mode rest) :
    (reading.readWith follow (.ofTokens (token :: rest))).1.warnings.toList =
      reading.warnings.toList ++ foundWarnings mode (token :: rest) := by
  have warned := reading.warnings_obey directive
  have same : token.warning? = directive.warning? := by
    rw [Token.warning?, asked]
    rfl
  rw [obeyed, ← same] at warned
  rw [warnings_readWith_ok asked followed]
  cases found with
  | some problem =>
      -- A directive that shows a problem gives no warning.
      have silent : token.warning? = none := by
        rw [same]
        cases directive with
        | skip name => simp [obey] at obeyed
        | _ => rfl
      rw [foundWarnings_of_problem shown, if_neg (Option.some_ne_none problem), warned, silent]
      rfl
  | none =>
      rw [foundWarnings_of_clean shown, unnoted rfl, foundWarnings_nil, firstProblem?_nil,
        if_pos rfl, if_pos rfl, later rfl, warned, List.append_assoc]
      rfl

theorem warnings_readBody {tokens : List Token} {reading : Reading}
    (inside : reading.document.mode = .endnote) :
    (reading.readWith obey (.ofTokens tokens)).1.warnings.toList =
      reading.warnings.toList ++ foundWarnings .endnote tokens := by
  induction tokens generalizing reading with
  | nil =>
      rw [foundWarnings_nil, List.append_nil]
      rfl
  | cons token rest ih =>
      cases asked : token.directive with
      | error problem =>
          rw [warnings_readWith_error asked,
            foundWarnings_of_problem (Token.problem?_of_error asked _), List.append_nil]
      | ok directive =>
          have shown := reading.problem_obey directive (Or.inl inside)
          rw [inside, ← Token.problem?_of_ok asked] at shown
          cases obeyed : reading.obey directive with
          | mk next found =>
              rw [obeyed] at shown
              apply warnings_of_plain asked obeyed obeyed shown.symm
              · rintro rfl
                exact Token.noteTokens_of_plain asked (plain_of_obey obeyed)
              · rintro rfl
                exact ih ((mode_obey obeyed).trans inside)

theorem warnings_readNote (reading : Reading) (body : List Token) :
    (reading.readNote body).1.warnings.toList =
      reading.warnings.toList ++ foundWarnings .endnote body := by
  let opened : Reading :=
    { reading with
      document := reading.document.beginNote
      pending := some reading.document.nextNote }
  have read : (opened.readWith obey (.ofTokens body)).1.warnings.toList = _ := warnings_readBody rfl
  rw [readNote]
  split
  · rename_i followed
    rw [followed] at read
    exact read
  · rename_i followed
    rw [followed] at read
    exact read

/-- **Reading warns of the unknown commands before the first problem**, and of no others. -/
theorem warnings_read {reading : Reading} (normal : reading.document.mode = .normal)
    (tokens : List Token) :
    (reading.read (.ofTokens tokens)).1.warnings.toList =
      reading.warnings.toList ++ foundWarnings .normal tokens := by
  unfold read
  induction tokens generalizing reading with
  | nil =>
      rw [foundWarnings_nil, List.append_nil]
      rfl
  | cons token rest ih =>
      cases asked : token.directive with
      | error problem =>
          rw [warnings_readWith_error asked,
            foundWarnings_of_problem (Token.problem?_of_error asked _), List.append_nil]
      | ok directive =>
          rcases directive.note_or_plain with ⟨command, body, rfl⟩ | plain
          · have clean : token.problem? .normal = none := Token.problem?_of_ok asked .normal
            have silent : token.warning? = none := by
              rw [Token.warning?, asked]
              rfl
            have warned := reading.warnings_readNote body
            have shown := reading.problem_readNote body
            rw [foundWarnings_of_clean clean, silent, Token.noteTokens_of_note asked]
            cases noted : reading.readNote body with
            | mk next found =>
                have followed := (follow_note normal command body).trans noted
                rw [noted] at warned shown
                rw [warnings_readWith_ok asked followed, ← shown]
                cases found with
                | some problem => simpa using warned
                | none =>
                    rw [if_pos rfl, if_pos rfl, ih (mode_readNote noted), warned,
                      List.append_assoc]
                    rfl
          · have shown := reading.problem_obey directive (Or.inr plain)
            rw [normal, ← Token.problem?_of_ok asked] at shown
            cases obeyed : reading.obey directive with
            | mk next found =>
                have followed := (reading.follow_of_plain plain).trans obeyed
                rw [obeyed] at shown
                apply warnings_of_plain asked followed obeyed shown.symm
                · intro _
                  exact Token.noteTokens_of_plain asked plain
                · rintro rfl
                  exact ih ((mode_obey obeyed).trans normal)

end Reading

/-! ## Reports -/

/-- The pages of a document: those of the main text with the lines of the endnotes behind it. -/
def composedPages (presets : Presets) (units : List Lexeme) : Pages :=
  (mainStream presets units).pages.addAll (noteStream presets (noteBodies units)).pages.lines

/-- Formatting fails with the first problem among the tokens. If there is none, it gives the lines
that the lexemes are composed in. -/
theorem outcome_format_eq {presets : Presets} (valid : presets.Valid) (source : List Char) :
    (format presets source).outcome =
      match firstProblem? .normal (tokens source) with
      | some problem => .error (.document problem)
      | none => .ok (composedPages presets (lexemes source)).lines := by
  split
  · rename_i problem first
    exact format_of_firstProblem? valid first
  · rename_i clean
    obtain ⟨lines, formatted⟩ := format_of_no_problem valid clean
    rw [formatted, lines_of_format formatted, composedPages]

/-- The lines that a document hands out when it is closed, with their marks apart from their
texts. -/
def pageLines (presets : Presets) (source : List Char) : List PageLine :=
  (presets.opened.read (.ofTokens (tokens source))).1.document.close.2

/-- If there is no problem, the lines that are handed out are those of the pages. -/
theorem pageLines_eq {presets : Presets} (valid : presets.Valid) {source : List Char}
    (clean : firstProblem? .normal (tokens source) = none) :
    pageLines presets source = (composedPages presets (lexemes source)).held.toList := by
  obtain ⟨lines, formatted⟩ := format_of_no_problem valid clean
  exact held_of_readsTo (readsTo_of_format formatted)

/-- The warnings of a document are those of the unknown commands before the first problem. -/
theorem warnings_format {presets : Presets} (valid : presets.Valid) (source : List Char) :
    (format presets source).warnings.toList = foundWarnings .normal (tokens source) := by
  have checked := Presets.invalid?_eq_none_iff.mpr valid
  have warned := @Reading.warnings_read presets.opened rfl (tokens source)
  rw [Presets.opened, List.nil_append] at warned
  simp only [format, deliver, checked, Session.read, Session.new, Reader.new]
  rw [← warned]
  obtain ⟨reading, _ | found⟩ := Reading.read ⟨.new presets, none, #[]⟩ (.ofTokens (tokens source))
  · rfl
  · rfl

end Galley
