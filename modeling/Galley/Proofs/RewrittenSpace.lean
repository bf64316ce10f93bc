import Mathlib.Data.List.DropRight
import Mathlib.Data.List.Forall2
import Galley.Proofs.JoinedTexts
import Galley.Proofs.PlainText

/-! # White space in other spellings

A run of blanks, a line break or a break between paragraphs may be written as another one without
moving the cuts around it, in a text as well as in the bodies of its endnotes. Main statement: the
lexemes of the text that is rewritten are the rewritten lexemes (`Galley.lexemes_respaced`).
-/

namespace Galley

namespace Lexeme

/-- White space that is written as other white space of its kind, or a lexeme that is left alone. -/
inductive Rewritten : Lexeme → Lexeme → Prop
  | same (unit : Lexeme) : Rewritten unit unit
  | blank (run : List Char) {other : List Char} (inhabited : other ≠ [])
      (blanks : ∀ char ∈ other, isBlank char) : Rewritten (.blank run) (.blank other)
  | lineBreak (lineEnd other : LineEnd) : Rewritten (.lineBreak lineEnd) (.lineBreak other)
  | paragraphBreak (first second : LineEnd) (more : List LineEnd) (otherFirst otherSecond : LineEnd)
      (otherMore : List LineEnd) : Rewritten (.paragraphBreak first second more)
        (.paragraphBreak otherFirst otherSecond otherMore)

/-- A lexeme whose white space is rewritten: its own, or that in the body of an endnote. -/
inductive Respaced : Lexeme → Lexeme → Prop
  | white {unit other : Lexeme} (rewritten : Rewritten unit other) : Respaced unit other
  | note {name body : List Char} {units : List Lexeme}
      (endnote : Command.ofName? name = some .endnote)
      (inside : List.Forall₂ Rewritten (lexemes body) units) :
      Respaced (.command name (some body)) (.command name (some (units.flatMap spelling)))

/-- A lexeme that shows no problem by its kind. -/
def Regular : Lexeme → Prop
  | .stray _ | .unclosed _ _ => False
  | _ => True

end Lexeme

/-! ## How a text starts -/

/-- A character of the same kind: blanks are of one kind, and so are the characters of a line
break. -/
def charKind (char : Char) : Char :=
  if isBlank char then ' ' else if char = '\r' then '\n' else char

/-- The kind of the character that a text starts with. -/
def leadKind (text : List Char) : Option Char :=
  text.head?.map charKind

theorem leadKind_append {first : List Char} (inhabited : first ≠ []) (rest : List Char) :
    leadKind (first ++ rest) = leadKind first := by
  obtain ⟨char, first, rfl⟩ := List.exists_cons_of_ne_nil inhabited
  rfl

theorem leadKind_of_isBlank {run : List Char} (inhabited : run ≠ [])
    (blanks : ∀ char ∈ run, isBlank char) : leadKind run = some ' ' := by
  obtain ⟨char, run, rfl⟩ := List.exists_cons_of_ne_nil inhabited
  simp [leadKind, charKind, blanks char List.mem_cons_self]

theorem leadKind_lineEnd (lineEnd : LineEnd) (rest : List Char) :
    leadKind (lineEnd.spelling ++ rest) = some '\n' := by
  cases lineEnd <;> rfl

theorem leadKind_of_startsWithLineEnd {text : List Char} (starts : StartsWithLineEnd text) :
    leadKind text = some '\n' := by
  obtain ⟨lineEnd, rest, rfl⟩ := starts
  exact leadKind_lineEnd lineEnd rest

/-- A class of characters that does not tell characters of one kind apart. -/
structure KindClass (continues : Char → Bool) : Prop where
  blanks : continues '\t' = continues ' '
  returns : continues '\r' = continues '\n'

theorem KindClass.eq_charKind {continues : Char → Bool} (kinds : KindClass continues)
    (char : Char) : continues char = continues (charKind char) := by
  unfold charKind
  split
  · rename_i blank
    simp only [isBlank, Bool.or_eq_true, decide_eq_true_eq] at blank
    rcases blank with rfl | rfl
    · rfl
    · exact kinds.blanks
  · split
    · rename_i lone
      rw [lone, kinds.returns]
    · rfl

theorem kindClass_isBlank : KindClass isBlank := ⟨rfl, rfl⟩

theorem kindClass_opensArgument : KindClass fun char => isLetter char || char = '{' :=
  ⟨by decide, by decide⟩

theorem kindClass_isSpecial : KindClass isSpecial := ⟨rfl, rfl⟩

theorem kindClass_ordinary : KindClass fun char => !isSpecial char := ⟨rfl, rfl⟩

theorem StopsRun.of_leadKind {continues : Char → Bool} (kinds : KindClass continues)
    {rest other : List Char} (same : leadKind other = leadKind rest)
    (stops : StopsRun continues rest) : StopsRun continues other := by
  intro char found
  rw [leadKind, Option.mem_def.mp found] at same
  obtain ⟨first, starts, kind⟩ := Option.map_eq_some_iff.mp same.symm
  rw [kinds.eq_charKind, ← kind, ← kinds.eq_charKind]
  exact stops first starts

theorem Lexeme.CutBefore.startsWithLineEnd {unit : Lexeme} {rest : List Char}
    (cut : unit.CutBefore rest) (regular : unit.Regular)
    (lead : leadKind unit.spelling = some '\n') : StartsWithLineEnd (unit.spelling ++ rest) := by
  cases cut with
  | blank inhabited blanks =>
      rw [spelling, leadKind_of_isBlank inhabited blanks] at lead
      simp at lead
  | lineBreak lineEnd => exact ⟨lineEnd, _, rfl⟩
  | paragraphBreak first second more =>
      exact ⟨first, second.spelling ++ more.flatMap LineEnd.spelling ++ rest, by simp [spelling]⟩
  | @text run _ inhabited ordinary =>
      obtain ⟨char, run, rfl⟩ := List.exists_cons_of_ne_nil inhabited
      have plain := ordinary char List.mem_cons_self
      have same : charKind char = '\n' := by simpa [leadKind, spelling] using lead
      rw [kindClass_isSpecial.eq_charKind, same] at plain
      simp [isSpecial] at plain
  | escaped | bareCommand | command => simp [leadKind, spelling, charKind, isBlank] at lead
  | unclosed | backslash | brace | carriageReturn => exact regular.elim

/-- Without stray carriage returns, the kind of its first character says whether a text starts with
a line break. -/
theorem Cut.startsWithLineEnd {units : List Lexeme} (cut : Cut units)
    (regular : ∀ unit ∈ units, unit.Regular)
    (lead : leadKind (units.flatMap Lexeme.spelling) = some '\n') :
    StartsWithLineEnd (units.flatMap Lexeme.spelling) := by
  cases cut with
  | nil => simp [leadKind] at lead
  | cons first later =>
      rw [List.flatMap_cons] at lead ⊢
      rw [leadKind_append first.spelling_ne_nil] at lead
      exact first.startsWithLineEnd (regular _ List.mem_cons_self) lead

/-! ## Texts that close their braces -/

namespace Closes

theorem run {depth : Nat} {run rest : List Char} (plain : ∀ char ∈ run, IsPlain char)
    (later : Closes depth rest) : Closes depth (run ++ rest) := by
  induction run with
  | nil => exact later
  | cons char run ih =>
      rw [List.forall_mem_cons] at plain
      exact .plain plain.1 (ih plain.2)

/-- A regular lexeme leaves no brace open and closes none. -/
theorem of_regular {unit : Lexeme} {rest : List Char} (cut : unit.CutBefore rest)
    (regular : unit.Regular) (later : Closes 0 rest) : Closes 0 (unit.spelling ++ rest) := by
  have named {name after : List Char} (inhabited : name ≠ [])
      (letters : ∀ char ∈ name, isLetter char) (closes : Closes 0 after) :
      Closes 0 ('\\' :: (name ++ after)) := by
    obtain ⟨first, name, rfl⟩ := List.exists_cons_of_ne_nil inhabited
    refine .guarded first (closes.run fun char member => ?_)
    exact isPlain_of_class isLetter (letters char (List.mem_cons_of_mem _ member)) (by decide)
  cases cut with
  | blank _ blanks =>
      exact later.run fun char member => isPlain_of_class isBlank (blanks char member) (by decide)
  | lineBreak lineEnd => exact later.run fun _ => LineEnd.isPlain_of_mem_spelling
  | paragraphBreak first second more =>
      refine later.run fun char member => ?_
      rw [Lexeme.spelling_paragraphBreak] at member
      obtain ⟨lineEnd, -, spelled⟩ := List.mem_flatMap.mp member
      exact LineEnd.isPlain_of_mem_spelling spelled
  | escaped => exact .guarded _ later
  | bareCommand inhabited letters => exact named inhabited letters later
  | @command name argument _ inhabited letters closed =>
      have inside := (closes_of_splitArgument closed).append_closing later rfl
      have whole := named inhabited letters (.opening inside)
      rw [Lexeme.spelling]
      simpa using whole
  | text _ ordinary =>
      refine later.run fun char member => ?_
      exact isPlain_of_class (fun char => !isSpecial char) (by simp [ordinary char member])
        (by decide)
  | unclosed | backslash | brace | carriageReturn => exact regular.elim

/-- **Regular lexemes close their braces.** -/
theorem of_regulars {units : List Lexeme} (cut : Cut units)
    (regular : ∀ unit ∈ units, unit.Regular) : Closes 0 (units.flatMap Lexeme.spelling) := by
  induction cut with
  | nil => exact .nil
  | cons first later ih =>
      obtain ⟨good, others⟩ := List.forall_mem_cons.mp regular
      rw [List.flatMap_cons]
      exact of_regular first good (ih others)

end Closes

/-! ## Lexemes in the place of others -/

namespace Lexeme

/-- A lexeme that may stand for another: it starts with the same kind of character, and it is cut
off before texts that start as those do before which the other one is cut off. -/
structure Replaces (other unit : Lexeme) : Prop where
  regular : other.Regular
  recut : ∀ {rest otherRest : List Char}, unit.CutBefore rest →
    leadKind otherRest = leadKind rest →
    (StartsWithLineEnd otherRest → StartsWithLineEnd rest) →
      other.CutBefore otherRest ∧ leadKind other.spelling = leadKind unit.spelling

theorem Regular.replaces_self {unit : Lexeme} (regular : unit.Regular) : unit.Replaces unit := by
  refine ⟨regular, fun {rest otherRest} cut lead starts => ⟨?_, rfl⟩⟩
  cases cut with
  | blank inhabited blanks stops =>
      exact .blank inhabited blanks (stops.of_leadKind kindClass_isBlank lead)
  | lineBreak lineEnd stops => exact .lineBreak lineEnd fun other => stops (starts other)
  | paragraphBreak first second more stops =>
      exact .paragraphBreak first second more fun other => stops (starts other)
  | escaped escapable => exact .escaped escapable _
  | bareCommand inhabited letters stops =>
      exact .bareCommand inhabited letters (stops.of_leadKind kindClass_opensArgument lead)
  | command inhabited letters closed =>
      exact .command inhabited letters ((closes_of_splitArgument closed).splitArgument_eq _)
  | text inhabited ordinary stops =>
      exact .text inhabited ordinary (stops.of_leadKind kindClass_ordinary lead)
  | unclosed | backslash | brace | carriageReturn => exact regular.elim

theorem Rewritten.replaces {unit other : Lexeme} (rewritten : Rewritten unit other)
    (regular : unit.Regular) : other.Replaces unit := by
  cases rewritten with
  | same => exact regular.replaces_self
  | blank run inhabited blanks =>
      refine ⟨trivial, fun cut lead _ => ?_⟩
      cases cut with
      | blank held heldBlanks stops =>
          refine ⟨.blank inhabited blanks (stops.of_leadKind kindClass_isBlank lead), ?_⟩
          exact (leadKind_of_isBlank inhabited blanks).trans
            (leadKind_of_isBlank held heldBlanks).symm
  | lineBreak lineEnd other =>
      refine ⟨trivial, fun cut _ starts => ?_⟩
      cases cut with
      | lineBreak _ stops =>
          exact ⟨.lineBreak other fun otherStarts => stops (starts otherStarts),
            by cases lineEnd <;> cases other <;> rfl⟩
  | paragraphBreak first second more otherFirst otherSecond otherMore =>
      refine ⟨trivial, fun cut _ starts => ?_⟩
      cases cut with
      | paragraphBreak _ _ _ stops =>
          refine ⟨.paragraphBreak _ _ _ fun otherStarts => stops (starts otherStarts), ?_⟩
          rw [spelling, spelling, List.append_assoc, List.append_assoc, leadKind_lineEnd,
            leadKind_lineEnd]

end Lexeme

/-- Lexemes that stand in the place of others are cut as those are. -/
theorem Cut.replace {units others : List Lexeme} (cut : Cut units)
    (regular : ∀ unit ∈ units, unit.Regular)
    (replaced : List.Forall₂ (fun unit other => other.Replaces unit) units others) :
    Cut others ∧
      leadKind (others.flatMap Lexeme.spelling) = leadKind (units.flatMap Lexeme.spelling) := by
  induction cut generalizing others with
  | nil =>
      cases replaced
      exact ⟨.nil, rfl⟩
  | @cons unit rest first later ih =>
      cases replaced with
      | @cons _ other _ otherRest head tail =>
          obtain ⟨good, goodRest⟩ := List.forall_mem_cons.mp regular
          -- Where the first lexeme is cut off depends on how the others start once replaced.
          obtain ⟨cutRest, lead⟩ := ih goodRest tail
          have breaks (starts : StartsWithLineEnd (otherRest.flatMap Lexeme.spelling)) :
              StartsWithLineEnd (rest.flatMap Lexeme.spelling) :=
            later.startsWithLineEnd goodRest
              (lead.symm.trans (leadKind_of_startsWithLineEnd starts))
          obtain ⟨cutFirst, leadFirst⟩ := head.recut first lead breaks
          refine ⟨.cons cutFirst cutRest, ?_⟩
          rw [List.flatMap_cons, List.flatMap_cons, leadKind_append cutFirst.spelling_ne_nil,
            leadKind_append first.spelling_ne_nil, leadFirst]

theorem regular_of_replaced {units others : List Lexeme}
    (replaced : List.Forall₂ (fun unit other => other.Replaces unit) units others) :
    ∀ other ∈ others, other.Regular := by
  induction replaced with
  | nil => simp
  | cons head tail ih => exact List.forall_mem_cons.mpr ⟨head.regular, ih⟩

/-- Regular lexemes with rewritten white space are cut as before. -/
theorem lexemes_rewritten {text : List Char} {units : List Lexeme}
    (regular : ∀ unit ∈ lexemes text, unit.Regular)
    (rewritten : List.Forall₂ Lexeme.Rewritten (lexemes text) units) :
    lexemes (units.flatMap Lexeme.spelling) = units ∧
      Closes 0 (units.flatMap Lexeme.spelling) := by
  have replaced := ((List.forall₂_and_left _ _).mpr ⟨regular, rewritten⟩).imp fun _ _ both =>
    both.2.replaces both.1
  have cut := ((cut_lexemes text).replace regular replaced).1
  exact ⟨cut.lexemes_eq, .of_regulars cut (regular_of_replaced replaced)⟩

namespace Lexeme

/-- A regular lexeme that, if it is an endnote, has a body of regular lexemes. -/
structure RegularInside (unit : Lexeme) : Prop where
  regular : unit.Regular
  body : ∀ text ∈ unit.noteBody?, ∀ inner ∈ lexemes text, inner.Regular

theorem Respaced.replaces {unit other : Lexeme} (respaced : Respaced unit other)
    (regular : unit.RegularInside) : other.Replaces unit := by
  cases respaced with
  | white rewritten => exact rewritten.replaces regular.regular
  | @note name body units endnote inside =>
      have closes := (lexemes_rewritten (regular.body body (noteBody?_endnote endnote body))
        inside).2
      refine ⟨trivial, fun cut _ _ => ⟨?_, rfl⟩⟩
      cases cut with
      | command inhabited letters closed =>
          exact .command inhabited letters (closes.splitArgument_eq _)

end Lexeme

/-- **White space in other spellings moves no cut.** Regular lexemes are the lexemes of what they
spell when their white space is rewritten, and that of their endnotes. -/
theorem lexemes_respaced {source : List Char} {units : List Lexeme}
    (regular : ∀ unit ∈ lexemes source, unit.RegularInside)
    (respaced : List.Forall₂ Lexeme.Respaced (lexemes source) units) :
    lexemes (units.flatMap Lexeme.spelling) = units := by
  have replaced := ((List.forall₂_and_left _ _).mpr ⟨regular, respaced⟩).imp fun _ _ both =>
    both.2.replaces both.1
  exact ((cut_lexemes source).replace (fun unit among => (regular unit among).regular)
    replaced).1.lexemes_eq

/-! ## White space around a text -/

/-- Blanks and line breaks. -/
inductive WhiteSpace : List Char → Prop
  | nil : WhiteSpace []
  | blank {char : Char} {rest : List Char} (blank : isBlank char) (later : WhiteSpace rest) :
      WhiteSpace (char :: rest)
  | lineEnd (lineEnd : LineEnd) {rest : List Char} (later : WhiteSpace rest) :
      WhiteSpace (lineEnd.spelling ++ rest)

/-- Whether a lexeme is white space. -/
def Lexeme.isSpace : Lexeme → Bool
  | .blank _ | .lineBreak _ | .paragraphBreak _ _ _ => true
  | _ => false

theorem PlainSource.cons {char : Char} {rest : List Char} (plain : PlainSource rest)
    (unmarked : char ≠ '\\' ∧ char ≠ '{' ∧ char ≠ '}')
    (paired : char = '\r' → rest.head? = some '\n') : PlainSource (char :: rest) where
  unmarked := List.forall_mem_cons.mpr ⟨unmarked, plain.unmarked⟩
  paired := by
    intro index lone
    cases index with
    | zero =>
        rw [List.getElem?_cons_succ, ← List.head?_eq_getElem?]
        exact paired (Option.some.inj lone)
    | succ index => exact plain.paired index lone

namespace WhiteSpace

variable {text rest : List Char}

theorem append (first : WhiteSpace text) (second : WhiteSpace rest) :
    WhiteSpace (text ++ rest) := by
  induction first with
  | nil => exact second
  | blank blank _ ih => exact .blank blank ih
  | lineEnd lineEnd _ ih =>
      rw [List.append_assoc]
      exact .lineEnd lineEnd ih

theorem of_blanks (blanks : ∀ char ∈ text, isBlank char) : WhiteSpace text := by
  induction text with
  | nil => exact .nil
  | cons char text ih =>
      rw [List.forall_mem_cons] at blanks
      exact .blank blanks.1 (ih blanks.2)

theorem of_lineEnds (ends : List LineEnd) : WhiteSpace (ends.flatMap LineEnd.spelling) := by
  induction ends with
  | nil => exact .nil
  | cons lineEnd ends ih => exact .lineEnd lineEnd ih

theorem mem (space : WhiteSpace text) :
    ∀ char ∈ text, isBlank char ∨ char = '\r' ∨ char = '\n' := by
  induction space with
  | nil => simp
  | blank blank _ ih => exact List.forall_mem_cons.mpr ⟨Or.inl blank, ih⟩
  | lineEnd lineEnd _ ih =>
      intro char member
      rcases List.mem_append.mp member with spelled | later
      · cases lineEnd <;> simp_all [LineEnd.spelling]
      · exact ih char later

theorem plainSource (space : WhiteSpace text) : PlainSource text := by
  induction space with
  | nil => exact ⟨by simp, by simp⟩
  | blank blank _ ih =>
      refine ih.cons (isPlain_of_class isBlank blank (by decide)) ?_
      rintro rfl
      exact absurd blank (by decide)
  | @lineEnd lineEnd rest _ ih =>
      have feed : PlainSource ('\n' :: rest) := ih.cons (by decide) (absurd · (by decide))
      cases lineEnd with
      | lf => exact feed
      | crlf => exact feed.cons (by decide) fun _ => rfl

theorem stopsRun {continues : Char → Bool} (kinds : KindClass continues)
    (blank : continues ' ' = false) (feed : continues '\n' = false) (space : WhiteSpace text) :
    StopsRun continues text := by
  intro char first
  rw [kinds.eq_charKind, charKind]
  rcases space.mem char (List.mem_of_head? first) with isBlank | rfl | rfl
  · rwa [if_pos isBlank]
  · exact feed
  · exact feed

/-- White space is cut into white space alone. -/
theorem isSpace_of_mem (space : WhiteSpace text) : ∀ unit ∈ lexemes text, unit.isSpace := by
  intro unit member
  cases space.plainSource.unmarked_lexemes unit member with
  | @text run isWord =>
      obtain ⟨char, more, rfl⟩ := List.exists_cons_of_ne_nil isWord.1
      have inside : char ∈ text := by
        rw [← flatMap_spelling_lexemes text]
        exact List.mem_flatMap.mpr ⟨_, member, List.mem_cons_self⟩
      have ordinary := isWord.2 char List.mem_cons_self
      rcases space.mem char inside with blank | rfl | rfl
      · simp [isSpecial, blank] at ordinary
      · exact absurd ordinary (by decide)
      · exact absurd ordinary (by decide)
  | _ => rfl

end WhiteSpace

theorem Lexeme.CutBefore.whiteSpace {unit : Lexeme} {rest : List Char} (cut : unit.CutBefore rest)
    (space : unit.isSpace) : WhiteSpace unit.spelling := by
  cases cut with
  | blank _ blanks => exact .of_blanks blanks
  | lineBreak lineEnd =>
      have ends := WhiteSpace.of_lineEnds [lineEnd]
      rwa [List.flatMap_singleton] at ends
  | paragraphBreak first second more =>
      rw [spelling_paragraphBreak]
      exact .of_lineEnds _
  | _ => simp [isSpace] at space

theorem Cut.whiteSpace {units : List Lexeme} (cut : Cut units)
    (space : ∀ unit ∈ units, unit.isSpace) : WhiteSpace (units.flatMap Lexeme.spelling) := by
  induction cut with
  | nil => exact .nil
  | cons first later ih =>
      obtain ⟨head, tail⟩ := List.forall_mem_cons.mp space
      rw [List.flatMap_cons]
      exact (first.whiteSpace head).append (ih tail)

theorem Lexeme.CutBefore.leadKind_ne {unit : Lexeme} {rest : List Char} (cut : unit.CutBefore rest)
    (regular : unit.Regular) (solid : unit.isSpace = false) :
    leadKind unit.spelling ≠ some ' ' ∧ leadKind unit.spelling ≠ some '\n' := by
  cases cut with
  | @text run _ inhabited ordinary =>
      obtain ⟨char, run, rfl⟩ := List.exists_cons_of_ne_nil inhabited
      have plain := ordinary char List.mem_cons_self
      rw [kindClass_isSpecial.eq_charKind] at plain
      constructor <;> intro same <;> rw [Option.some.inj same] at plain <;>
        exact absurd plain (by decide)
  | escaped | bareCommand | command => simp [leadKind, spelling, charKind, isBlank]
  | blank | lineBreak | paragraphBreak => simp [isSpace] at solid
  | unclosed | backslash | brace | carriageReturn => exact regular.elim

/-- A text whose first lexeme is no white space does not start with white space. -/
theorem Cut.leadKind_ne {units : List Lexeme} (cut : Cut units)
    (regular : ∀ unit ∈ units, unit.Regular) (solid : ∀ unit ∈ units.head?, unit.isSpace = false) :
    leadKind (units.flatMap Lexeme.spelling) ≠ some ' ' ∧
      leadKind (units.flatMap Lexeme.spelling) ≠ some '\n' := by
  cases cut with
  | nil => simp [leadKind]
  | cons first later =>
      rw [List.flatMap_cons, leadKind_append first.spelling_ne_nil]
      exact first.leadKind_ne (regular _ List.mem_cons_self) (solid _ rfl)

/-- White space is cut off before a text that does not start with white space. -/
theorem Lexeme.CutBefore.before_solid {unit : Lexeme} {rest text : List Char}
    (cut : unit.CutBefore rest) (space : unit.isSpace) (noBlank : leadKind text ≠ some ' ')
    (noFeed : leadKind text ≠ some '\n') : unit.CutBefore text := by
  have noBreak : ¬StartsWithLineEnd text := fun starts =>
    noFeed (leadKind_of_startsWithLineEnd starts)
  cases cut with
  | blank inhabited blanks =>
      refine .blank inhabited blanks fun char first => Bool.not_eq_true _ |>.mp fun blank => ?_
      refine noBlank ?_
      rw [leadKind, Option.mem_def.mp first, Option.map_some, charKind, if_pos blank]
  | lineBreak lineEnd => exact .lineBreak lineEnd noBreak
  | paragraphBreak first second more => exact .paragraphBreak first second more noBreak
  | _ => simp [isSpace] at space

/-- Anything regular but white space is cut off before white space. -/
theorem Lexeme.CutBefore.before_space {unit : Lexeme} {rest text : List Char}
    (cut : unit.CutBefore rest) (regular : unit.Regular) (solid : unit.isSpace = false)
    (space : WhiteSpace text) : unit.CutBefore text := by
  cases cut with
  | escaped escapable => exact .escaped escapable _
  | bareCommand inhabited letters =>
      exact .bareCommand inhabited letters
        (space.stopsRun kindClass_opensArgument (by decide) (by decide))
  | command inhabited letters closed =>
      exact .command inhabited letters ((closes_of_splitArgument closed).splitArgument_eq _)
  | text inhabited ordinary =>
      exact .text inhabited ordinary
        (space.stopsRun kindClass_ordinary (by decide) (by decide))
  | blank | lineBreak | paragraphBreak => simp [isSpace] at solid
  | unclosed | backslash | brace | carriageReturn => exact regular.elim

/-- White space before a text changes nothing but the white space that its lexemes start with. -/
theorem lexemes_leading {text before : List Char} (regular : ∀ unit ∈ lexemes text, unit.Regular)
    (space : WhiteSpace before) :
    ∃ lead others core : List Lexeme, lexemes text = lead ++ core ∧
      lexemes (before ++ text) = others ++ core ∧
      (∀ unit ∈ lead, unit.isSpace) ∧ ∀ unit ∈ others, unit.isSpace := by
  obtain ⟨lead, core, split, leadSpace, solid⟩ : ∃ lead core, lexemes text = lead ++ core ∧
      (∀ unit ∈ lead, unit.isSpace) ∧ ∀ unit ∈ core.head?, unit.isSpace = false := by
    refine ⟨_, _, List.takeWhile_append_dropWhile.symm, List.all_eq_true.mp List.all_takeWhile,
      fun unit first => ?_⟩
    have stopped := List.head?_dropWhile_not Lexeme.isSpace (lexemes text)
    rwa [Option.mem_def.mp first] at stopped
  have whole := cut_lexemes text
  rw [split] at whole regular
  obtain ⟨cutLead, cutCore⟩ := whole.of_append
  have around := space.append (cutLead.whiteSpace leadSpace)
  refine ⟨lead, lexemes (before ++ lead.flatMap Lexeme.spelling), core, split, ?_, leadSpace,
    around.isSpace_of_mem⟩
  have ⟨noBlank, noFeed⟩ := cutCore.leadKind_ne
    (fun unit among => regular unit (List.mem_append_right _ among)) solid
  rw [← flatMap_spelling_lexemes text, split, List.flatMap_append, ← List.append_assoc,
    lexemes_joined, cutCore.lexemes_eq]
  intro last found
  exact (last_lexeme found).1.before_solid
    (around.isSpace_of_mem last (List.mem_of_getLast? found)) noBlank noFeed

/-- White space behind a text changes nothing but the white space that its lexemes end with. -/
theorem lexemes_trailing {text after : List Char} (regular : ∀ unit ∈ lexemes text, unit.Regular)
    (space : WhiteSpace after) :
    ∃ core trail others : List Lexeme, lexemes text = core ++ trail ∧
      lexemes (text ++ after) = core ++ others ∧
      (∀ unit ∈ trail, unit.isSpace) ∧ ∀ unit ∈ others, unit.isSpace := by
  obtain ⟨core, trail, split, trailSpace, solid⟩ : ∃ core trail, lexemes text = core ++ trail ∧
      (∀ unit ∈ trail, unit.isSpace) ∧ ∀ unit ∈ core.getLast?, unit.isSpace = false := by
    refine ⟨_, _, List.rdropWhile_append_rtakeWhile.symm, fun _ => List.mem_rtakeWhile_imp,
      fun last found => ?_⟩
    obtain ⟨filled, rfl⟩ := List.mem_getLast?_eq_getLast found
    simpa using List.rdropWhile_last_not Lexeme.isSpace (lexemes text) filled
  have whole := cut_lexemes text
  rw [split] at whole regular
  obtain ⟨cutCore, cutTrail⟩ := whole.of_append
  have around := (cutTrail.whiteSpace trailSpace).append space
  refine ⟨core, trail, lexemes (trail.flatMap Lexeme.spelling ++ after), split, ?_, trailSpace,
    around.isSpace_of_mem⟩
  rw [← flatMap_spelling_lexemes text, split, List.flatMap_append, List.append_assoc,
    lexemes_joined, cutCore.lexemes_eq]
  intro last found
  have cut := (last_lexeme found).1
  rw [cutCore.lexemes_eq] at found
  exact cut.before_space (regular last (List.mem_append_left _ (List.mem_of_getLast? found)))
    (solid last found) around

end Galley
