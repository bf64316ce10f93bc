import Galley.Proofs.Outlines
import Galley.Proofs.RewrittenSpace
import Galley.Proofs.ShiftedTokens

/-! # The spelling of white space does not matter

A document is formatted in the same lines, and with warnings of the same commands, when its blanks
and breaks are written in another way and when white space is added around it. Main statement:
`Galley.format_respaced`.
-/

namespace Galley

open Composer (Action)

/-! ## Lexemes without problems -/

/-- The name of the command that a warning is about. -/
def Warning.commandName : Warning → List Char
  | .unknownCommand name => name.text

theorem Warning.commandName_shift (offset : Nat) (warning : Warning) :
    (warning.shift offset).commandName = warning.commandName := by
  cases warning
  rfl

namespace Lexeme

/-- A lexeme that shows no problem in a part of a document, wherever it stands, and no problem in
its endnote. -/
def Clean (mode : Mode) (unit : Lexeme) : Prop :=
  firstProblem? mode [⟨0, unit⟩] = none

/-- The names of the unknown commands that a lexeme warns of. -/
def warnedNames (mode : Mode) (unit : Lexeme) : List (List Char) :=
  (foundWarnings mode [⟨0, unit⟩]).map Warning.commandName

theorem firstProblem?_singleton (mode : Mode) (token : Token) :
    firstProblem? mode [token] =
      (token.problem? mode).or (firstProblem? .endnote token.noteTokens) := by
  rw [firstProblem?_cons, firstProblem?_nil, Option.or_none]

/-- Whether a lexeme is clean does not depend on its place. -/
theorem clean_iff {mode : Mode} {unit : Lexeme} (start : Nat) :
    unit.Clean mode ↔ firstProblem? mode [⟨start, unit⟩] = none := by
  have shifted := firstProblem?_shift start mode [⟨0, unit⟩]
  rw [List.map_singleton, Token.shift, Nat.zero_add] at shifted
  rw [shifted, Option.map_eq_none_iff, Clean]

theorem warnedNames_eq (mode : Mode) (unit : Lexeme) (start : Nat) :
    unit.warnedNames mode = (foundWarnings mode [⟨start, unit⟩]).map Warning.commandName := by
  have shifted := foundWarnings_shift start mode [⟨0, unit⟩]
  rw [List.map_singleton, Token.shift, Nat.zero_add] at shifted
  rw [shifted, warnedNames, List.map_map]
  exact List.map_congr_left fun warning _ => (warning.commandName_shift start).symm

end Lexeme

/-- Lexemes show no problem if each of them is clean. -/
theorem firstProblem?_place_iff {mode : Mode} {units : List Lexeme} (start : Nat) :
    firstProblem? mode (Token.place start units) = none ↔ ∀ unit ∈ units, unit.Clean mode := by
  induction units generalizing start with
  | nil => simp [Token.place, firstProblem?_nil]
  | cons unit units ih =>
      rw [List.forall_mem_cons, Lexeme.clean_iff start,
        ← ih (start + byteLength unit.spelling), Lexeme.firstProblem?_singleton, Token.place,
        firstProblem?_cons]
      simp only [Option.or_eq_none_iff, and_assoc]

/-- Clean lexemes warn of the commands that each of them warns of. -/
theorem warnedNames_place {mode : Mode} {units : List Lexeme}
    (clean : ∀ unit ∈ units, unit.Clean mode) (start : Nat) :
    (foundWarnings mode (Token.place start units)).map Warning.commandName =
      units.flatMap (Lexeme.warnedNames mode) := by
  induction units generalizing start with
  | nil => simp [Token.place, foundWarnings_nil]
  | cons unit units ih =>
      obtain ⟨first, later⟩ := List.forall_mem_cons.mp clean
      rw [Lexeme.clean_iff start, Lexeme.firstProblem?_singleton, Option.or_eq_none_iff] at first
      rw [List.flatMap_cons, ← ih later (start + byteLength unit.spelling),
        unit.warnedNames_eq mode start, Token.place, foundWarnings_of_clean first.1,
        foundWarnings_of_clean first.1, first.2, foundWarnings_nil]
      simp

namespace Lexeme

variable {mode : Mode} {unit other : Lexeme}

theorem Clean.regular (clean : unit.Clean mode) : unit.Regular := by
  rw [Clean, firstProblem?_singleton, Option.or_eq_none_iff] at clean
  cases unit with
  | stray char => exact absurd clean.1 (Option.some_ne_none _)
  | unclosed name rest => exact absurd clean.1 (Option.some_ne_none _)
  | _ => trivial

theorem Clean.body (clean : unit.Clean mode) {text : List Char} (note : text ∈ unit.noteBody?) :
    ∀ inner ∈ lexemes text, inner.Clean .endnote := by
  rw [Clean, firstProblem?_singleton, Option.or_eq_none_iff, Token.noteTokens,
    Option.mem_def.mp note] at clean
  exact (firstProblem?_place_iff _).mp clean.2

theorem Clean.regularInside (clean : unit.Clean mode) : unit.RegularInside :=
  ⟨clean.regular, fun _ note inner among => (clean.body note inner among).regular⟩

theorem clean_of_isSpace (space : unit.isSpace) : unit.Clean mode := by
  rw [Clean, firstProblem?_singleton]
  cases unit with
  | blank | lineBreak | paragraphBreak => exact firstProblem?_nil _
  | _ => simp [isSpace] at space

theorem warnedNames_of_isSpace (space : unit.isSpace) : unit.warnedNames mode = [] := by
  cases unit with
  | blank | lineBreak | paragraphBreak =>
      rw [warnedNames, foundWarnings_of_clean rfl]
      simp [Token.warning?, Token.directive, Directive.warning?, Token.noteTokens, noteBody?,
        foundWarnings_nil, Except.toOption]
  | _ => simp [isSpace] at space

theorem noteBody?_of_isSpace (space : unit.isSpace) : unit.noteBody? = none := by
  cases unit with
  | blank | lineBreak | paragraphBreak => rfl
  | _ => simp [isSpace] at space

section Notes

variable {name text : List Char} (endnote : Command.ofName? name = some .endnote)

include endnote

theorem problem?_note (start : Nat) :
    Token.problem? .normal ⟨start, .command name (some text)⟩ = none := by
  simp only [Token.problem?, Token.directive, endnote]
  rfl

theorem clean_note_iff :
    (command name (some text)).Clean .normal ↔ ∀ inner ∈ lexemes text, inner.Clean .endnote := by
  have note : (command name (some text)).noteBody? = some text := noteBody?_endnote endnote text
  rw [Clean, firstProblem?_singleton, problem?_note endnote, Option.none_or, Token.noteTokens, note]
  exact firstProblem?_place_iff _

theorem warnedNames_note (clean : ∀ inner ∈ lexemes text, inner.Clean .endnote) :
    (command name (some text)).warnedNames .normal =
      (lexemes text).flatMap (warnedNames .endnote) := by
  have note : (command name (some text)).noteBody? = some text := noteBody?_endnote endnote text
  have silent : Token.warning? ⟨0, .command name (some text)⟩ = none := by
    simp only [Token.warning?, Token.directive, endnote]
    rfl
  rw [warnedNames, foundWarnings_of_clean (problem?_note endnote 0), silent, foundWarnings_nil,
    ite_self, Token.noteTokens, note, List.append_nil]
  exact warnedNames_place clean _

end Notes

/-! ## Rewritten lexemes -/

/-- White space is left alone or becomes other white space, which asks for the same. -/
theorem Rewritten.eq_or_space (rewritten : Rewritten unit other) :
    other = unit ∨ unit.isSpace ∧ other.isSpace ∧ other.actions = unit.actions := by
  cases rewritten with
  | same => exact Or.inl rfl
  | _ => exact Or.inr ⟨rfl, rfl, rfl⟩

theorem Rewritten.actions_eq (rewritten : Rewritten unit other) :
    other.actions = unit.actions := by
  rcases rewritten.eq_or_space with rfl | ⟨-, -, same⟩
  · rfl
  · exact same

theorem Rewritten.noteBody?_eq (rewritten : Rewritten unit other) :
    other.noteBody? = unit.noteBody? := by
  rcases rewritten.eq_or_space with rfl | ⟨space, otherSpace, -⟩
  · rfl
  · rw [noteBody?_of_isSpace space, noteBody?_of_isSpace otherSpace]

theorem Rewritten.clean (rewritten : Rewritten unit other) (clean : unit.Clean mode) :
    other.Clean mode := by
  rcases rewritten.eq_or_space with rfl | ⟨-, space, -⟩
  · exact clean
  · exact clean_of_isSpace space

theorem Rewritten.warnedNames_eq (rewritten : Rewritten unit other) :
    other.warnedNames mode = unit.warnedNames mode := by
  rcases rewritten.eq_or_space with rfl | ⟨space, otherSpace, -⟩
  · rfl
  · rw [warnedNames_of_isSpace space, warnedNames_of_isSpace otherSpace]

end Lexeme

section Rewritten

variable {mode : Mode} {units others : List Lexeme}

theorem clean_rewritten (rewritten : List.Forall₂ Lexeme.Rewritten units others)
    (clean : ∀ unit ∈ units, unit.Clean mode) : ∀ other ∈ others, other.Clean mode := by
  induction rewritten with
  | nil => simp
  | cons head tail ih =>
      rw [List.forall_mem_cons] at clean ⊢
      exact ⟨head.clean clean.1, ih clean.2⟩

theorem flatMap_rewritten {α : Type} {effect : Lexeme → List α}
    (same : ∀ {unit other : Lexeme}, Lexeme.Rewritten unit other → effect other = effect unit)
    (rewritten : List.Forall₂ Lexeme.Rewritten units others) :
    others.flatMap effect = units.flatMap effect := by
  induction rewritten with
  | nil => rfl
  | cons head tail ih => rw [List.flatMap_cons, List.flatMap_cons, same head, ih]

end Rewritten

namespace Lexeme

variable {unit other : Lexeme}

/-- The rewritten lexemes of the body of a clean endnote are the lexemes of the new body. -/
theorem Clean.lexemes_body {name body : List Char} {units : List Lexeme}
    (clean : (command name (some body)).Clean .normal)
    (endnote : Command.ofName? name = some .endnote)
    (inside : List.Forall₂ Rewritten (lexemes body) units) :
    lexemes (units.flatMap spelling) = units :=
  (lexemes_rewritten (clean.regularInside.body body (noteBody?_endnote endnote body)) inside).1

theorem Respaced.clean (respaced : Respaced unit other) (clean : unit.Clean .normal) :
    other.Clean .normal := by
  cases respaced with
  | white rewritten => exact rewritten.clean clean
  | note endnote inside =>
      rw [clean_note_iff endnote, clean.lexemes_body endnote inside]
      exact clean_rewritten inside ((clean_note_iff endnote).mp clean)

theorem Respaced.warnedNames_eq (respaced : Respaced unit other) (clean : unit.Clean .normal) :
    other.warnedNames .normal = unit.warnedNames .normal := by
  have otherClean := respaced.clean clean
  cases respaced with
  | white rewritten => exact rewritten.warnedNames_eq
  | note endnote inside =>
      rw [warnedNames_note endnote ((clean_note_iff endnote).mp clean),
        warnedNames_note endnote ((clean_note_iff endnote).mp otherClean),
        clean.lexemes_body endnote inside]
      exact flatMap_rewritten Rewritten.warnedNames_eq inside

end Lexeme

section Respaced

variable {units others : List Lexeme}

/-- In the main text, rewritten lexemes ask for the same. -/
theorem mainActions_respaced (respaced : List.Forall₂ Lexeme.Respaced units others)
    (number : Nat) : mainActions number others = mainActions number units := by
  induction respaced generalizing number with
  | nil => rfl
  | cons head tail ih =>
      cases head with
      | white rewritten =>
          rw [mainActions, mainActions, rewritten.noteBody?_eq, rewritten.actions_eq, ih, ih]
      | note endnote inside =>
          rw [mainActions, mainActions, Lexeme.noteBody?_endnote endnote,
            Lexeme.noteBody?_endnote endnote]
          exact congrArg _ (ih _)

/-- In the endnotes, rewritten lexemes ask for the same. -/
theorem notesActions_respaced (respaced : List.Forall₂ Lexeme.Respaced units others)
    (clean : ∀ unit ∈ units, unit.Clean .normal) (number : Nat) :
    notesActions number (noteBodies others) = notesActions number (noteBodies units) := by
  induction respaced generalizing number with
  | nil => rfl
  | @cons unit other _ _ head tail ih =>
      obtain ⟨first, later⟩ := List.forall_mem_cons.mp clean
      have rest := ih later
      unfold noteBodies at rest ⊢
      cases head with
      | white rewritten =>
          rw [List.filterMap_cons, List.filterMap_cons, rewritten.noteBody?_eq]
          cases unit.noteBody? with
          | none => exact rest number
          | some body => exact congrArg (noteActions number body ++ ·) (rest (number + 1))
      | @note name body inner endnote inside =>
          have same : noteActions number (inner.flatMap Lexeme.spelling) =
              noteActions number body := by
            rw [noteActions, noteActions, first.lexemes_body endnote inside, bodyActions,
              bodyActions, flatMap_rewritten Lexeme.Rewritten.actions_eq inside]
          rw [List.filterMap_cons, List.filterMap_cons, Lexeme.noteBody?_endnote endnote,
            Lexeme.noteBody?_endnote endnote]
          simp only [notesActions, same, rest]

end Respaced

/-! ## White space at the start and at the end -/

namespace Composer

/-- White space at the end of a paragraph does nothing but end it. -/
theorem run_space {trail : List Lexeme} (space : ∀ unit ∈ trail, unit.isSpace)
    (composer : Composer) :
    composer.run (trail.flatMap Lexeme.actions ++ [.endParagraph]) =
      composer.run [.endParagraph] := by
  induction trail generalizing composer with
  | nil => rfl
  | cons unit trail ih =>
      obtain ⟨first, later⟩ := List.forall_mem_cons.mp space
      have whole : (composer.run [.finishWord]).1.word = [] := composer.word_finishWord
      rw [List.flatMap_cons, List.append_assoc, run_append_congr (ih later _)]
      -- The first lexeme finishes the word, and so would the end of the paragraph alone.
      refine Eq.trans ?_ (composer.run_endParagraph []).symm
      cases unit with
      | blank run => rfl
      | lineBreak lineEnd =>
          exact @run_append_congr composer [.finishWord] _ _ (run_endLine_endParagraph [] whole)
      | paragraphBreak firstEnd second more =>
          exact @run_append_congr composer [.finishWord] _ _ (run_endParagraph_endParagraph _ [])
      | _ => simp [Lexeme.isSpace] at first

end Composer

namespace Stream

/-- A stream is left as its composer is, and with the rows of its composer on its pages. -/
theorem run_congr {stream : Stream} {first second : List Action}
    (fixedFirst : ∀ height, .change (.measure .textHeight height) ∉ first)
    (fixedSecond : ∀ height, .change (.measure .textHeight height) ∉ second)
    (same : stream.composer.run first = stream.composer.run second) :
    stream.run first = stream.run second := by
  have composer : (stream.run first).composer = (stream.run second).composer := by
    rw [composer_run, composer_run, same]
  have pages : (stream.run first).pages = (stream.run second).pages := by
    rw [pages_run fixedFirst, pages_run fixedSecond, rowTexts, rowTexts, same]
  exact congrArg₂ Stream.mk composer pages

/-- White space before any text does nothing. -/
theorem run_space {lead : List Lexeme} (space : ∀ unit ∈ lead, unit.isSpace)
    (settings : Settings) : (new settings).run (lead.flatMap Lexeme.actions) = new settings := by
  have ended : (new settings).step .endLine = new settings := by
    have quiet := @Composer.endLine_of_nil (.new settings) rfl
    simp only [step, finished, Composer.step, new, quiet]
    rfl
  induction lead with
  | nil => rfl
  | cons unit lead ih =>
      obtain ⟨first, later⟩ := List.forall_mem_cons.mp space
      rw [List.flatMap_cons, run_append]
      have unmoved : (new settings).run unit.actions = new settings := by
        cases unit with
        | blank run => rfl
        | lineBreak lineEnd => exact ended
        | paragraphBreak firstEnd second more => rfl
        | _ => simp [Lexeme.isSpace] at first
      rw [unmoved, ih later]

end Stream

section Space

variable {space : List Lexeme} (spaces : ∀ unit ∈ space, unit.isSpace)

include spaces

theorem noteBodies_space : noteBodies space = [] :=
  List.filterMap_eq_nil_iff.mpr fun unit among => Lexeme.noteBody?_of_isSpace (spaces unit among)

theorem mainActions_space (number : Nat) :
    mainActions number space = space.flatMap Lexeme.actions := by
  induction space with
  | nil => rfl
  | cons unit rest ih =>
      obtain ⟨first, later⟩ := List.forall_mem_cons.mp spaces
      rw [mainActions, Lexeme.noteBody?_of_isSpace first, ih later, List.flatMap_cons]

theorem warnedNames_space (mode : Mode) : space.flatMap (Lexeme.warnedNames mode) = [] :=
  List.flatMap_eq_nil_iff.mpr fun unit among => Lexeme.warnedNames_of_isSpace (spaces unit among)

theorem composedPages_leading (presets : Presets) (core : List Lexeme) :
    composedPages presets (space ++ core) = composedPages presets core := by
  rw [composedPages, composedPages, mainStream, mainStream, noteBodies_append, mainActions_append,
    noteBodies_space spaces, mainActions_space spaces, List.append_assoc, Stream.run_append,
    Stream.run_space spaces]
  rfl

theorem composedPages_trailing (presets : Presets) (core : List Lexeme) :
    composedPages presets (core ++ space) = composedPages presets core := by
  have fixed (height : Nat) : Action.change (.measure .textHeight height) ∉
      space.flatMap Lexeme.actions ++ [.endParagraph] := by
    intro member
    rcases List.mem_append.mp member with asked | ended
    · obtain ⟨unit, among, changes⟩ := List.mem_flatMap.mp asked
      have isSpace := spaces unit among
      cases unit <;> simp [Lexeme.isSpace, Lexeme.actions] at isSpace changes
    · simp at ended
  have ended := @Stream.run_congr ((Stream.new presets.main).run (mainActions 1 core)) _ _ fixed
    (by simp) (Composer.run_space spaces _)
  rw [composedPages, composedPages, mainStream, mainStream, noteBodies_append, mainActions_append,
    noteBodies_space spaces, mainActions_space spaces, List.append_assoc,
    Stream.run_append _ (mainActions 1 core), ended, ← Stream.run_append, List.append_nil]

end Space

/-! ## Formatting -/

/-- Lexemes that are read as others are: they show no problem, they warn of the same commands, and
what they are composed in is the same. -/
structure ReadAlike (units others : List Lexeme) : Prop where
  clean : ∀ other ∈ others, other.Clean .normal
  names : others.flatMap (Lexeme.warnedNames .normal) = units.flatMap (Lexeme.warnedNames .normal)
  pages : ∀ presets, composedPages presets others = composedPages presets units

namespace ReadAlike

variable {units others more : List Lexeme}

theorem trans (first : ReadAlike units others) (second : ReadAlike others more) :
    ReadAlike units more where
  clean := second.clean
  names := second.names.trans first.names
  pages := fun presets => (second.pages presets).trans (first.pages presets)

theorem of_respaced (respaced : List.Forall₂ Lexeme.Respaced units others)
    (clean : ∀ unit ∈ units, unit.Clean .normal) : ReadAlike units others where
  clean := by
    induction respaced with
    | nil => simp
    | cons head tail ih =>
        rw [List.forall_mem_cons] at clean ⊢
        exact ⟨head.clean clean.1, ih clean.2⟩
  names := by
    induction respaced with
    | nil => rfl
    | cons head tail ih =>
        rw [List.forall_mem_cons] at clean
        rw [List.flatMap_cons, List.flatMap_cons, head.warnedNames_eq clean.1, ih clean.2]
  pages := fun presets => by
    rw [composedPages, composedPages, mainStream, mainStream, noteStream, noteStream,
      mainActions_respaced respaced, notesActions_respaced respaced clean]

theorem of_leading {before text : List Char} (space : WhiteSpace before)
    (clean : ∀ unit ∈ lexemes text, unit.Clean .normal) :
    ReadAlike (lexemes text) (lexemes (before ++ text)) := by
  obtain ⟨lead, others, core, split, splitOther, spaces, otherSpaces⟩ :=
    lexemes_leading (fun unit among => (clean unit among).regular) space
  rw [split] at clean
  rw [split, splitOther]
  refine ⟨fun unit among => ?_, ?_, fun presets => ?_⟩
  · rcases List.mem_append.mp among with outside | inside
    · exact Lexeme.clean_of_isSpace (otherSpaces unit outside)
    · exact clean unit (List.mem_append_right _ inside)
  · rw [List.flatMap_append, List.flatMap_append, warnedNames_space spaces,
      warnedNames_space otherSpaces]
  · rw [composedPages_leading spaces, composedPages_leading otherSpaces]

theorem of_trailing {text after : List Char} (space : WhiteSpace after)
    (clean : ∀ unit ∈ lexemes text, unit.Clean .normal) :
    ReadAlike (lexemes text) (lexemes (text ++ after)) := by
  obtain ⟨core, trail, others, split, splitOther, spaces, otherSpaces⟩ :=
    lexemes_trailing (fun unit among => (clean unit among).regular) space
  rw [split] at clean
  rw [split, splitOther]
  refine ⟨fun unit among => ?_, ?_, fun presets => ?_⟩
  · rcases List.mem_append.mp among with inside | outside
    · exact clean unit (List.mem_append_left _ inside)
    · exact Lexeme.clean_of_isSpace (otherSpaces unit outside)
  · rw [List.flatMap_append, List.flatMap_append, warnedNames_space spaces,
      warnedNames_space otherSpaces]
  · rw [composedPages_trailing spaces, composedPages_trailing otherSpaces]

end ReadAlike

/-- A source whose white space is rewritten, with more white space around it. -/
def Respaced (source other : List Char) : Prop :=
  ∃ (before : List Char) (units : List Lexeme) (after : List Char),
    WhiteSpace before ∧ List.Forall₂ Lexeme.Respaced (lexemes source) units ∧ WhiteSpace after ∧
      other = before ++ (units.flatMap Lexeme.spelling ++ after)

theorem readAlike_of_respaced {source other : List Char} (respaced : Respaced source other)
    (clean : ∀ unit ∈ lexemes source, unit.Clean .normal) :
    ReadAlike (lexemes source) (lexemes other) := by
  obtain ⟨before, units, after, leading, inside, trailing, rfl⟩ := respaced
  have same := ReadAlike.of_respaced inside clean
  have spelled : lexemes (units.flatMap Lexeme.spelling) = units :=
    lexemes_respaced (fun unit among => (clean unit among).regularInside) inside
  rw [← spelled] at same
  have behind := ReadAlike.of_trailing trailing same.clean
  exact (same.trans behind).trans (.of_leading leading behind.clean)

/-- **The spelling of white space does not matter.** A source that is formatted is formatted in the
same lines, and with warnings of the same commands in the same order, when its blanks and breaks and
those of its endnotes are rewritten and white space is put before and behind it. -/
theorem format_respaced {presets : Presets} {source other : List Char} {lines : List (List Char)}
    (respaced : Respaced source other)
    (formatted : (format presets source).outcome = .ok lines) :
    (format presets other).outcome = .ok lines ∧
      (format presets other).warnings.toList.map Warning.commandName =
        (format presets source).warnings.toList.map Warning.commandName := by
  have valid := valid_of_format formatted
  rw [outcome_format_eq valid] at formatted
  cases first : firstProblem? .normal (tokens source) with
  | some problem => simp [first] at formatted
  | none =>
      have clean := (firstProblem?_place_iff 0).mp first
      have alike := readAlike_of_respaced respaced clean
      have none : firstProblem? .normal (tokens other) = none :=
        (firstProblem?_place_iff 0).mpr alike.clean
      rw [first] at formatted
      refine ⟨?_, ?_⟩
      · rw [outcome_format_eq valid, none, ← formatted]
        exact congrArg (fun pages : Pages => Except.ok pages.lines) (alike.pages presets)
      · rw [warnings_format valid, warnings_format valid]
        exact (warnedNames_place alike.clean 0).trans
          (alike.names.trans (warnedNames_place clean 0).symm)

/-- White space in the main text and in an endnote is rewritten, and an unknown command is skipped
in both documents. -/
theorem format_respaced_of_endnote :
    let source := "\\bold to\n\\endnote\x7bin\tit\x7d be\n\nor".toList
    let other := " \r\n\\bold\t to\r\n\\endnote\x7bin it\x7d  be\r\n\n\r\nor\n".toList
    Respaced source other ∧
      (format .default other).outcome =
        .ok (["   to [1] be", "", "   or", "[1] in it"].map String.toList) ∧
      (format .default other).warnings.toList.map Warning.commandName = ["bold".toList] := by
  intro source other
  have cut : lexemes source = [.command "bold".toList none, .blank [' '], .text "to".toList,
      .lineBreak .lf, .command "endnote".toList (some "in\tit".toList), .blank [' '],
      .text "be".toList, .paragraphBreak .lf .lf [], .text "or".toList] := by
    decide +kernel
  have cutBody : lexemes "in\tit".toList =
      [.text "in".toList, .blank ['\t'], .text "it".toList] := by
    decide +kernel
  have body : List.Forall₂ Lexeme.Rewritten (lexemes "in\tit".toList)
      [.text "in".toList, .blank [' '], .text "it".toList] := by
    rw [cutBody]
    exact .cons (.same _) (.cons (.blank _ (by decide) (by simp [isBlank])) (.cons (.same _) .nil))
  have respaced : Respaced source other := by
    refine ⟨" \r\n".toList, [.command "bold".toList none, .blank "\t ".toList, .text "to".toList,
      .lineBreak .crlf, .command "endnote".toList (some "in it".toList), .blank "  ".toList,
      .text "be".toList, .paragraphBreak .crlf .lf [.crlf], .text "or".toList], ['\n'],
      .blank rfl (.lineEnd .crlf .nil), ?_, .lineEnd .lf .nil, rfl⟩
    rw [cut]
    exact .cons (.white (.same _)) (.cons (.white (.blank _ (by decide) (by simp [isBlank])))
      (.cons (.white (.same _)) (.cons (.white (.lineBreak _ _)) (.cons (.note rfl body)
      (.cons (.white (.blank _ (by decide) (by simp [isBlank]))) (.cons (.white (.same _))
      (.cons (.white (.paragraphBreak _ _ _ _ _ _)) (.cons (.white (.same _)) .nil))))))))
  have formatted : (format .default source).outcome =
      .ok (["   to [1] be", "", "   or", "[1] in it"].map String.toList) := by
    decide +kernel
  have warned : (format .default source).warnings.toList.map Warning.commandName =
      ["bold".toList] := by
    decide +kernel
  obtain ⟨same, names⟩ := format_respaced respaced formatted
  exact ⟨respaced, same, names.trans warned⟩

end Galley
