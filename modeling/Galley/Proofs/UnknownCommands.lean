import Mathlib.Data.List.TakeWhile
import Galley.Proofs.DocumentTiling
import Galley.Proofs.FormatReport
import Galley.Proofs.SkippedCommands
import Galley.Proofs.WrittenBytes

/-! # Unknown commands

Formatting warns once of each unknown command before the first violation, in the order of the
document, and each warning points at the name behind a backslash. Beyond that an unknown command
does nothing: reading without it gives the same document (`Galley.Reading.read_unwarned`), so its
lines and its error are the same. Main statement: `Galley.format_warns_exactly`.
-/

namespace Galley

/-! ## Warnings -/

theorem Token.warning?_eq (token : Token) :
    token.warning? = token.unknownName?.map Warning.unknownCommand := by
  cases unknown : token.unknownName? with
  | some name =>
      rw [warning?, directive_eq_skip_iff.mpr unknown]
      rfl
  | none =>
      cases asked : token.directive with
      | error problem =>
          rw [warning?, asked]
          rfl
      | ok directive =>
          rw [warning?, asked]
          cases directive with
          | skip name => simp [directive_eq_skip_iff.mp asked] at unknown
          | _ => rfl

/-! ## Where the names stand -/

/-- Pieces that stand behind `start` and up to `stop`, each with something before it. -/
inductive Piece.Ascend : (start stop : Nat) → List Piece → Prop
  | nil {start stop : Nat} (le : start ≤ stop) : Ascend start stop []
  | cons {start stop : Nat} {piece : Piece} {rest : List Piece} (behind : start < piece.start)
      (later : Ascend piece.stop stop rest) : Ascend start stop (piece :: rest)

namespace Piece.Ascend

variable {start mid stop : Nat} {pieces first second : List Piece}

theorem from_earlier {outer : Nat} (ascend : Ascend start stop pieces) (le : outer ≤ start) :
    Ascend outer stop pieces := by
  cases ascend with
  | nil inside => exact .nil (Nat.le_trans le inside)
  | cons behind later => exact .cons (Nat.lt_of_le_of_lt le behind) later

theorem append (early : Ascend start mid first) (late : Ascend mid stop second) :
    Ascend start stop (first ++ second) := by
  induction early with
  | nil le => exact late.from_earlier le
  | cons behind _ ih => exact .cons behind (ih late)

theorem to_later {outer : Nat} (ascend : Ascend start stop pieces) (le : stop ≤ outer) :
    Ascend start outer pieces := by
  have whole := ascend.append (.nil le)
  rwa [List.append_nil] at whole

theorem lt_start (ascend : Ascend start stop pieces) :
    ∀ piece ∈ pieces, start < piece.start := by
  induction ascend with
  | nil => exact List.forall_mem_nil _
  | @cons start _ piece _ behind _ ih =>
      refine List.forall_mem_cons.mpr ⟨behind, fun other member => ?_⟩
      exact Nat.lt_trans (Nat.lt_of_lt_of_le behind (Nat.le_add_right _ _)) (ih other member)

theorem pairwise (ascend : Ascend start stop pieces) :
    pieces.Pairwise fun earlier later => earlier.stop < later.start := by
  induction ascend with
  | nil => exact .nil
  | cons _ later ih => exact .cons later.lt_start ih

end Piece.Ascend

namespace Token

/-- The tokens of an endnote are those of the argument of its command. -/
theorem noteTokens_cases (token : Token) :
    token.noteTokens = [] ∨ ∃ name body, token.lexeme = .command name (some body) ∧
      token.noteTokens = (argumentPiece token.start name body).tokens := by
  cases noted : token.lexeme.noteBody? with
  | none => exact .inl (by rw [noteTokens, noted])
  | some body =>
      exact .inr ⟨_, body, Lexeme.noteBody?_eq_some_iff.mp noted,
        by rw [noteTokens, noted, argumentPiece_eq]⟩

theorem unknownName?_eq_some {token : Token} {name : Piece}
    (unknown : token.unknownName? = some name) : ∃ text argument,
      token.lexeme = .command text argument ∧ name = namePiece token.start text := by
  obtain ⟨start, unit⟩ := token
  cases unit with
  | command text argument =>
      simp only [unknownName?] at unknown
      split at unknown
      · simp at unknown
      · exact ⟨text, argument, rfl, (Option.some.inj unknown).symm⟩
  | _ => simp [unknownName?] at unknown

/-- What a token starts with ends no later than the token. -/
theorem stop_le_of_spelling {token : Token} {front : List Char} (back : List Char)
    (spelled : token.lexeme.spelling = front ++ back) :
    token.start + byteLength front ≤ token.piece.stop := by
  rw [Piece.stop, piece, spelled, byteLength_append, ← Nat.add_assoc]
  exact Nat.le_add_right _ _

section Command

variable {token : Token} {name : List Char} {argument : Option (List Char)}
  (unit : token.lexeme = .command name argument)

include unit

theorem stop_namePiece_le : (namePiece token.start name).stop ≤ token.piece.stop := by
  rw [stop_namePiece]
  cases argument with
  | none =>
      apply stop_le_of_spelling []
      rw [unit, List.append_nil]
      rfl
  | some body =>
      apply stop_le_of_spelling ('{' :: body ++ ['}'])
      rw [unit]
      exact List.append_assoc ('\\' :: name) _ _

/-- The argument of a command stands behind its name and inside the command. -/
theorem argumentPiece_within {body : List Char} (given : argument = some body) :
    (namePiece token.start name).stop ≤ (argumentPiece token.start name body).start ∧
      (argumentPiece token.start name body).stop ≤ token.piece.stop := by
  rw [stop_namePiece, stop_argumentPiece, start_argumentPiece]
  constructor
  · rw [byteLength_append]
    omega
  · apply stop_le_of_spelling ['}']
    rw [unit, given]
    rfl

theorem ascend_name :
    Piece.Ascend token.start (namePiece token.start name).stop token.unknownName?.toList := by
  have behind : token.start < (namePiece token.start name).start :=
    Nat.lt_add_of_pos_right (byteLength_pos (List.cons_ne_nil _ _))
  cases unknown : token.unknownName? with
  | none => exact .nil (Nat.le_trans (Nat.le_of_lt behind) (Nat.le_add_right _ _))
  | some piece =>
      obtain ⟨text, other, same, rfl⟩ := unknownName?_eq_some unknown
      cases unit.symm.trans same
      exact .cons behind (.nil (Nat.le_refl _))

end Command

theorem ascend_unknownName? (token : Token) :
    Piece.Ascend token.start token.piece.stop token.unknownName?.toList := by
  cases unknown : token.unknownName? with
  | none => exact .nil (Nat.le_add_right _ _)
  | some name =>
      obtain ⟨text, argument, unit, -⟩ := unknownName?_eq_some unknown
      rw [← unknown]
      exact (ascend_name unit).to_later (stop_namePiece_le unit)

end Token

/-- The names of the unknown commands among tokens of a document, in order. -/
def unknownNames (nodes : List (Mode × Token)) : List Piece :=
  nodes.filterMap fun node => node.2.unknownName?

theorem unknownNames_cons (node : Mode × Token) (rest : List (Mode × Token)) :
    unknownNames (node :: rest) = node.2.unknownName?.toList ++ unknownNames rest := by
  cases unknown : node.2.unknownName? <;> simp [unknownNames, unknown]

theorem unknownNames_append (first second : List (Mode × Token)) :
    unknownNames (first ++ second) = unknownNames first ++ unknownNames second :=
  List.filterMap_append

/-- The names of unknown commands stand in the order of the document, those in an endnote behind
the name of its command and before its end. -/
theorem ascend_unknownNames {start stop : Nat} {mode : Mode} {tokens : List Token}
    (tiles : Token.Tiles start stop tokens) :
    Piece.Ascend start stop (unknownNames (tokenTree mode tokens)) := by
  fun_induction tokenTree mode tokens generalizing start stop with
  | case1 mode =>
      cases tiles
      exact .nil (Nat.le_refl _)
  | case2 mode token rest ihNote ihRest =>
      cases tiles with
      | cons inhabited tail =>
          rw [unknownNames_cons, unknownNames_append, ← List.append_assoc]
          refine Piece.Ascend.append ?_ (ihRest tail)
          rcases token.noteTokens_cases with none | ⟨name, body, unit, same⟩
          · rw [none, tokenTree, unknownNames, List.filterMap_nil, List.append_nil]
            exact token.ascend_unknownName?
          · obtain ⟨after, before⟩ := Token.argumentPiece_within unit rfl
            have inner := ihNote (same ▸ (Token.argumentPiece token.start name body).tiles_tokens)
            exact (Token.ascend_name unit).append ((inner.from_earlier after).to_later before)

/-- Tokens of a document and of its endnotes are read in a piece that is cut into tokens. -/
theorem lexed_of_mem_tokenTree {source : List Char} {mode : Mode} {tokens : List Token}
    (lexed : ∀ token ∈ tokens, ∃ piece, Piece.Lexed source piece ∧ token ∈ piece.tokens) :
    ∀ node ∈ tokenTree mode tokens, ∃ piece, Piece.Lexed source piece ∧ node.2 ∈ piece.tokens := by
  fun_induction tokenTree mode tokens with
  | case1 mode => exact List.forall_mem_nil _
  | case2 mode token rest ihNote ihRest =>
      obtain ⟨here, later⟩ := List.forall_mem_cons.mp lexed
      refine List.forall_mem_cons.mpr ⟨here, List.forall_mem_append.mpr ⟨?_, ihRest later⟩⟩
      apply ihNote
      rcases token.noteTokens_cases with none | ⟨name, body, unit, same⟩
      · rw [none]
        exact List.forall_mem_nil _
      · obtain ⟨piece, outer, member⟩ := here
        rw [same]
        exact fun inner among => ⟨_, .argument outer member unit, among⟩

/-! ## Warnings in their document -/

/-- A piece is the name of a command in a document: the longest run of letters behind a
backslash. -/
structure Piece.NamesCommand (source : List Char) (name : Piece) : Prop where
  inhabited : name.text ≠ []
  letters : ∀ char ∈ name.text, isLetter char
  sliced : name.span.slice? source = some name.text
  backslash : ∃ start, start + 1 = name.start ∧
    (Span.mk start name.start).slice? source = some ['\\']
  longest : ∀ char, Piece.LiesIn ⟨[char], name.stop⟩ source → isLetter char = false

/-- The tokens of a document, those of endnotes among them, are split before the first violation,
with which formatting fails. If there is none, the document is formatted. -/
structure SplitsAtError (presets : Presets) (source : List Char)
    (before after : List (Mode × Token)) : Prop where
  tree : tokenTree .normal (tokens source) = before ++ after
  clean : ∀ node ∈ before, ∀ problem span, ¬node.2.Violates node.1 problem span
  ends : match after with
    | [] => ∃ lines, (format presets source).outcome = .ok lines
    | node :: _ => ∃ problem span, node.2.Violates node.1 problem span ∧
        (format presets source).outcome = .error (.document problem)

/-- How formatting warns of unknown commands: once of each before the first error, in order. The
names lie in the document behind their backslashes, one behind the other. Without the unknown
commands the tokens of the document are formatted in the same way, and there are no warnings. -/
structure WarnsExactly (presets : Presets) (source : List Char) : Prop where
  complete : ∃ before after, SplitsAtError presets source before after ∧
    (format presets source).warnings.toList = (unknownNames before).map Warning.unknownCommand
  ascending : (format presets source).warnings.toList.Pairwise fun earlier later =>
    earlier.span.stop < later.span.start
  named : ∀ name, Warning.unknownCommand name ∈ (format presets source).warnings.toList →
    name.NamesCommand source
  written : ∀ writer, (writeFormatted presets source writer).2.warnings =
    (format presets source).warnings
  streamed : formatScript presets (.ofTokens (tokens source)) = format presets source
  inert : formatScript presets (.ofKnown (tokens source)) = (format presets source).unwarned

theorem warningsBeforeProblem_of_clean {nodes : List (Mode × Token)}
    (clean : ∀ node ∈ nodes, node.2.problem? node.1 = none) :
    warningsBeforeProblem nodes = (unknownNames nodes).map Warning.unknownCommand := by
  have all : nodes.takeWhile (fun node => (node.2.problem? node.1).isNone) = nodes :=
    List.takeWhile_eq_self_iff.mpr fun node member => by rw [clean node member, Option.isNone_none]
  rw [warningsBeforeProblem, all, unknownNames, List.map_filterMap]
  simp only [Token.warning?_eq]

theorem warningsBeforeProblem_of_first {before after : List (Mode × Token)} {node : Mode × Token}
    {problem : Problem} (clean : ∀ node ∈ before, node.2.problem? node.1 = none)
    (shown : node.2.problem? node.1 = some problem) :
    warningsBeforeProblem (before ++ node :: after) =
      (unknownNames before).map Warning.unknownCommand := by
  have stopped : warningsBeforeProblem (node :: after) = [] := by
    simp [warningsBeforeProblem, shown]
  rw [warningsBeforeProblem_append, warningsBeforeProblem_of_clean clean, stopped, ite_self,
    List.append_nil]

/-- The warnings are those of the unknown commands before the first error. -/
theorem exists_splitsAtError {presets : Presets} (valid : presets.Valid) (source : List Char) :
    ∃ before after, SplitsAtError presets source before after ∧
      (format presets source).warnings.toList =
        (unknownNames before).map Warning.unknownCommand := by
  have warned := warnings_format valid source
  cases first : firstProblem? .normal (tokens source) with
  | none =>
      have clean := List.findSome?_eq_none_iff.mp first
      refine ⟨_, [], ⟨(List.append_nil _).symm, ?_, format_of_no_problem valid first⟩, ?_⟩
      · exact fun node member => Token.problem?_eq_none_iff.mp (clean node member)
      · exact warned.trans (warningsBeforeProblem_of_clean clean)
  | some problem =>
      obtain ⟨before, node, after, tree, shown, clean⟩ := List.findSome?_eq_some_iff.mp first
      obtain ⟨span, violates⟩ := Token.exists_violates shown
      have failed := format_of_firstProblem? valid first
      refine ⟨before, node :: after, ⟨tree, ?_, problem, span, violates, failed⟩, ?_⟩
      · exact fun node member => Token.problem?_eq_none_iff.mp (clean node member)
      · rw [warned, foundWarnings, tree]
        exact warningsBeforeProblem_of_first clean shown

theorem namesCommand_of_mem_unknownNames {source : List Char} {name : Piece}
    (member : name ∈ unknownNames (tokenTree .normal (tokens source))) :
    name.NamesCommand source := by
  obtain ⟨node, among, unknown⟩ := List.mem_filterMap.mp member
  obtain ⟨text, argument, unit, rfl⟩ := Token.unknownName?_eq_some unknown
  obtain ⟨piece, lexed, inside⟩ := lexed_of_mem_tokenTree
    (fun token given => ⟨_, .document, given⟩) node among
  obtain ⟨before, after, split⟩ := List.append_of_mem inside
  have lies := Piece.commandLies_of_split lexed split unit
  exact {
    inhabited := lies.inhabited
    letters := lies.letters
    sliced := lies.name_lies
    backslash := ⟨node.2.start, lies.name_start.symm, lies.backslash⟩
    longest := lies.longest }

theorem warnings_writeFormatted (presets : Presets) (source : List Char) (writer : ByteWriter) :
    (writeFormatted presets source writer).2.warnings = (format presets source).warnings := by
  rw [writeFormatted, deliver_eq]
  obtain ⟨failure | lines, warnings, journal⟩ := format presets source
  · rfl
  · dsimp only
    cases (Sink.writeAll writer lines).2 with
    | some reason => rfl
    | none =>
        dsimp only
        split <;> rfl

/-- **Warnings are exact, and unknown commands do nothing else.** -/
theorem format_warns_exactly {presets : Presets} (valid : presets.Valid) (source : List Char) :
    WarnsExactly presets source := by
  obtain ⟨before, after, splits, warned⟩ := exists_splitsAtError valid source
  have names : unknownNames (tokenTree .normal (tokens source)) =
      unknownNames before ++ unknownNames after := by
    rw [splits.tree, unknownNames_append]
  constructor
  case complete => exact ⟨before, after, splits, warned⟩
  case ascending =>
    have ascend : Piece.Ascend 0 (Piece.stop ⟨source, 0⟩) (unknownNames before ++ _) :=
      names ▸ ascend_unknownNames (Piece.tiles_tokens ⟨source, 0⟩)
    rw [warned, List.pairwise_map]
    exact (List.pairwise_append.mp ascend.pairwise).1
  case named =>
    intro name member
    rw [warned] at member
    obtain ⟨other, among, same⟩ := List.mem_map.mp member
    cases same
    apply namesCommand_of_mem_unknownNames
    rw [names]
    exact List.mem_append_left _ among
  case written => exact warnings_writeFormatted presets source
  case streamed => rfl
  case inert => exact formatScript_ofKnown presets source

/-- An upper-case letter makes a name unknown. The argument of an unknown command is not read, and
what stands behind the command that lacks its argument is not reached. -/
theorem format_warns_exactly_up_to_problem :
    let source := "\\foo\x7b\\bar\x7da\\endnote\x7b\\Fill b\\indent\x7d\\baz".toList
    Presets.default.Valid ∧ WarnsExactly .default source ∧
      (format .default source).warnings.toList =
        [.unknownCommand ⟨"foo".toList, 1⟩, .unknownCommand ⟨"Fill".toList, 21⟩] ∧
      (format .default source).outcome =
        .error (.document (.missingArgument ⟨"\\indent".toList, 27⟩)) := by
  have valid : Presets.default.Valid := Presets.invalid?_eq_none_iff.mp rfl
  exact ⟨valid, format_warns_exactly valid _, by decide +kernel, by decide +kernel⟩

end Galley
