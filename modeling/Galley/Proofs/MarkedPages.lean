import Mathlib.Data.List.SplitBy
import Galley.Proofs.PageHeights
import Galley.Proofs.StretchedLines
import Galley.Proofs.TurnedPages

/-! # Page marks in the lines of a document

The lines of a document are put on pages whose heights are positive
(`Galley.exists_pageActions`), so the first of them has no page mark. A line starts with the
character of page marks if it opens a page or if the first word on it starts with this character and
is not indented. The words of a document have that character only if its source does
(`Galley.pageBreak_not_mem_documentWords`). Main statement: `Galley.format_shows_pages`.
-/

namespace Galley

open Composer (Action finishedWords)

/-! ## What starts with a mark -/

/-- The text starts with the character that marks pages. -/
def StartsWithMark (text : List Char) : Prop :=
  text.head? = some pageBreak

instance (text : List Char) : Decidable (StartsWithMark text) :=
  inferInstanceAs (Decidable (_ = _))

theorem StartsWithMark.mem {text : List Char} (starts : StartsWithMark text) : pageBreak ∈ text :=
  List.mem_of_mem_head? starts

theorem PageLine.startsWithMark_render (line : PageLine) :
    StartsWithMark line.render ↔ line.opensPage ∨ StartsWithMark line.text := by
  unfold render
  split
  · rename_i opens
    exact iff_of_true rfl (Or.inl opens)
  · rename_i inner
    exact (or_iff_right inner).symm

/-- The row has no indentation, and its first word starts with the character that marks pages. -/
def Row.StartsWithMark (row : Row) : Prop :=
  ∃ word rest gaps, row = .line ⟨0, word :: rest, gaps⟩ ∧ Galley.StartsWithMark word

theorem Row.startsWithMark_text {row : Row} (shown : [] ∉ row.words) :
    Galley.StartsWithMark row.text ↔ row.StartsWithMark := by
  cases row with
  | skip => exact iff_of_false nofun nofun
  | line line =>
      obtain ⟨indentation, words, gaps⟩ := line
      cases indentation with
      | succ indentation =>
          -- An indented row starts with a blank.
          refine iff_of_false (fun starts => ?_) nofun
          exact absurd (Option.some.inj starts) (by decide)
      | zero =>
          cases words with
          | nil => exact iff_of_false nofun nofun
          | cons word rest =>
              obtain ⟨tail, joined⟩ := Line.joinWords_cons word rest gaps
              have inhabited : word ≠ [] := by
                rintro rfl
                exact shown List.mem_cons_self
              have starts : Galley.StartsWithMark (Row.line ⟨0, word :: rest, gaps⟩).text ↔
                  Galley.StartsWithMark word := by
                rw [Row.text, Line.render, joined, Galley.StartsWithMark, List.replicate_zero,
                  List.nil_append, List.head?_append_of_ne_nil _ inhabited]
                rfl
              rw [starts]
              constructor
              · exact fun mark => ⟨word, rest, gaps, rfl, mark⟩
              · rintro ⟨_, _, _, same, mark⟩
                cases same
                exact mark

/-- The line is what the row looks like on its page. -/
structure Row.ShownBy (row : Row) (line : PageLine) : Prop where
  text : row.text = line.text
  starts : Galley.StartsWithMark line.render ↔ line.opensPage ∨ row.StartsWithMark

/-- Two settings of words are those of a row. -/
theorem Regapped.exists_row {words : List (List Char)} {first second : List Char}
    (same : Regapped words first second) (opensPage : Bool) :
    ∃ row : Row, row.words = words ∧ row.ShownBy ⟨opensPage, first⟩ := by
  obtain ⟨row, rfl, rfl, shown⟩ : ∃ row : Row, row.words = words ∧ row.text = first ∧
      [] ∉ row.words := by
    cases same with
    | skip => exact ⟨.skip, rfl, rfl, List.not_mem_nil⟩
    | line indentation gaps others inhabited shown =>
        exact ⟨.line ⟨indentation, words, gaps⟩, rfl, rfl, shown⟩
  refine ⟨row, rfl, rfl, ?_⟩
  rw [PageLine.startsWithMark_render, Row.startsWithMark_text shown]

theorem exists_rows {twins : List TwinLine} (same : ∀ twin ∈ twins, twin.SameButGaps) :
    ∃ rows : List Row, rows.flatMap Row.words = twins.flatMap TwinLine.words ∧
      List.Forall₂ Row.ShownBy rows (twins.map TwinLine.first) := by
  induction twins with
  | nil => exact ⟨[], rfl, .nil⟩
  | cons twin rest ih =>
      obtain ⟨first, later⟩ := List.forall_mem_cons.mp same
      obtain ⟨row, words, shown⟩ := first.set.exists_row twin.first.opensPage
      obtain ⟨rows, wordsLater, shownLater⟩ := ih later
      exact ⟨row :: rows, by rw [List.flatMap_cons, words, wordsLater, List.flatMap_cons],
        .cons shown shownLater⟩

/-! ## Characters of words -/

namespace Composer

/-- A character that is in no text that is added is in no word that is finished. -/
theorem not_mem_finishedWords {char : Char} {word : List Char} {actions : List Action}
    (absent : char ∉ word) (avoids : ∀ text, Action.addText text ∈ actions → char ∉ text)
    (gradual : ∀ whole, Action.addWord whole ∉ actions) :
    ∀ finished ∈ finishedWords word actions, char ∉ finished := by
  have added : char ∉ actions.flatMap Action.text := by
    intro member
    obtain ⟨action, asked, found⟩ := List.mem_flatMap.mp member
    cases action with
    | addText text => exact avoids text asked found
    | _ => simp [Action.text] at found
  have spelled := flatten_finishedWords word gradual
  intro finished among found
  have member : char ∈ word ++ actions.flatMap Action.text :=
    spelled ▸ List.mem_append_left _ (List.mem_flatten_of_mem among found)
  exact (List.mem_append.mp member).elim absent added

end Composer

theorem pageBreak_not_mem_noteMark (number : Nat) : pageBreak ∉ Document.noteMark number := by
  rw [Document.noteMark, Nat.toString_eq_repr, Nat.toList_repr]
  intro member
  rcases List.mem_append.mp member with early | closing
  · rcases List.mem_cons.mp early with opening | digit
    · exact absurd opening (by decide)
    · exact absurd (Nat.isDigit_of_mem_toDigits (by decide) (by decide) digit) (by decide)
  · exact absurd (List.mem_singleton.mp closing) (by decide)

theorem pageBreak_not_mem_noteLabel (number : Nat) : pageBreak ∉ Document.noteLabel number := by
  intro member
  rcases List.mem_append.mp member with mark | blank
  · exact pageBreak_not_mem_noteMark number mark
  · exact absurd (List.mem_singleton.mp blank) (by decide)

/-- The text that a lexeme adds is spelled in it. -/
theorem Lexeme.mem_spelling_of_addText {unit : Lexeme} {text : List Char} {char : Char}
    (asked : Action.addText text ∈ unit.actions) (found : char ∈ text) : char ∈ unit.spelling := by
  have plain : char ∈ unit.plain := by
    rw [← unit.flatMap_text_actions]
    exact List.mem_flatMap.mpr ⟨_, asked, found⟩
  cases unit with
  | escaped other => exact List.mem_cons_of_mem _ plain
  | text run => exact plain
  | _ => exact absurd plain List.not_mem_nil

theorem Lexeme.mem_spelling_of_noteBody {unit : Lexeme} {body : List Char} {char : Char}
    (noted : unit.noteBody? = some body) (found : char ∈ body) : char ∈ unit.spelling := by
  obtain rfl := noteBody?_eq_some_iff.mp noted
  simp [spelling, found]

theorem pageBreak_not_mem_mainActions {units : List Lexeme}
    (absent : ∀ unit ∈ units, pageBreak ∉ unit.spelling) (number : Nat) (text : List Char)
    (asked : Action.addText text ∈ mainActions number units) : pageBreak ∉ text := by
  induction units generalizing number with
  | nil => exact absurd asked List.not_mem_nil
  | cons unit rest ih =>
      obtain ⟨first, later⟩ := List.forall_mem_cons.mp absent
      unfold mainActions at asked
      split at asked
      · rcases List.mem_cons.mp asked with mark | asked
        · cases mark
          exact pageBreak_not_mem_noteMark number
        · exact ih later _ asked
      · rcases List.mem_append.mp asked with asked | asked
        · exact mt (Lexeme.mem_spelling_of_addText asked) first
        · exact ih later _ asked

/-- A label that is due adds no such character. -/
theorem pageBreak_not_mem_labelled {actions : List Action}
    (absent : ∀ text, Action.addText text ∈ actions → pageBreak ∉ text) (due : Option Nat)
    (text : List Char) (asked : Action.addText text ∈ labelled due actions) :
    pageBreak ∉ text := by
  cases due with
  | none => exact absent text (labelled_none actions ▸ asked)
  | some number =>
      induction actions with
      | nil =>
          cases List.mem_singleton.mp asked
          exact pageBreak_not_mem_noteMark number
      | cons first rest ih =>
          have later := ih fun text member => absent text (List.mem_cons_of_mem _ member)
          cases first with
          | addText other =>
              rcases List.mem_cons.mp asked with same | asked
              · cases same
                intro member
                rcases List.mem_append.mp member with label | found
                · exact pageBreak_not_mem_noteLabel number label
                · exact absent other List.mem_cons_self found
              · exact absent text (List.mem_cons_of_mem _ asked)
          | _ =>
              rcases List.mem_cons.mp asked with same | asked
              · cases same
              · exact later asked

/-- The lexemes of a text spell no character that is not in it. -/
theorem not_mem_spelling {char : Char} {text : List Char} (absent : char ∉ text) :
    ∀ unit ∈ lexemes text, char ∉ unit.spelling := by
  intro unit member found
  rw [← flatMap_spelling_lexemes text] at absent
  exact absent (List.mem_flatMap.mpr ⟨unit, member, found⟩)

theorem pageBreak_not_mem_notesActions {bodies : List (List Char)}
    (absent : ∀ body ∈ bodies, pageBreak ∉ body) (number : Nat) (text : List Char)
    (asked : Action.addText text ∈ notesActions number bodies) : pageBreak ∉ text := by
  induction bodies generalizing number with
  | nil => exact absurd asked List.not_mem_nil
  | cons body rest ih =>
      obtain ⟨first, later⟩ := List.forall_mem_cons.mp absent
      rcases List.mem_append.mp asked with asked | asked
      · rcases List.mem_append.mp asked with asked | ending
        · refine pageBreak_not_mem_labelled (fun text asked => ?_) _ text asked
          obtain ⟨unit, member, asked⟩ := List.mem_flatMap.mp (List.mem_filter.mp asked).1
          exact mt (Lexeme.mem_spelling_of_addText asked) (not_mem_spelling first unit member)
        · exact absurd (List.mem_singleton.mp ending) nofun
      · exact ih later _ asked

/-- **Words have no characters of their own**: the character that marks pages is in none of them
unless the source has it. -/
theorem pageBreak_not_mem_documentWords {source : List Char} (absent : pageBreak ∉ source) :
    ∀ word ∈ documentWords (lexemes source), pageBreak ∉ word := by
  have spelled := not_mem_spelling absent
  have bodies : ∀ body ∈ noteBodies (lexemes source), pageBreak ∉ body := by
    intro body member
    obtain ⟨unit, among, noted⟩ := List.mem_filterMap.mp member
    exact mt (Lexeme.mem_spelling_of_noteBody noted) (spelled unit among)
  have main := @Composer.not_mem_finishedWords pageBreak []
    (mainActions 1 (lexemes source) ++ [.endParagraph]) List.not_mem_nil
    (fun text asked => pageBreak_not_mem_mainActions spelled 1 text (by simpa using asked))
    (by simp [addWord_not_mem_mainActions])
  have notes := Composer.not_mem_finishedWords List.not_mem_nil
    (pageBreak_not_mem_notesActions bodies 1)
    fun whole => not_mem_notesActions 1 _ (Or.inl ⟨whole, rfl⟩)
  exact List.forall_mem_append.mpr ⟨main, notes⟩

/-! ## What a document asks of its pages -/

/-- What an action of a stream asks of its pages before they take any row. -/
def Composer.Action.heightActions : Action → List Pages.Action
  | .change (.measure .textHeight height) => [.setHeight height]
  | _ => []

/-- What the actions of a stream ask of its pages. -/
def Stream.pageActions (stream : Stream) : List Action → List Pages.Action
  | [] => []
  | action :: rest =>
      action.heightActions ++ (stream.finished action).map .add ++
        (stream.step action).pageActions rest

namespace Stream

theorem run_heightActions (stream : Stream) (action : Action) :
    stream.pages.run action.heightActions = (stream.pagesUnder action, []) := by
  cases action with
  | change change =>
      cases change with
      | measure measure value => cases measure <;> rfl
      | switch switch on => rfl
  | _ => rfl

/-- The pages of a stream take what is asked of them. -/
theorem run_pageActions (stream : Stream) (actions : List Action) :
    stream.pages.run (stream.pageActions actions) = ((stream.run actions).pages, []) := by
  induction actions generalizing stream with
  | nil => rfl
  | cons action rest ih =>
      rw [pageActions, Pages.run_append, Pages.run_append, run_heightActions, Pages.run_add]
      have later : ((stream.pagesUnder action).addAll (stream.finished action)).run
          ((stream.step action).pageActions rest) = (((stream.step action).run rest).pages, []) :=
        ih (stream.step action)
      simp only [later]
      rfl

theorem setHeight_mem_pageActions {stream : Stream} {actions : List Action} {height : Nat}
    (asked : .setHeight height ∈ stream.pageActions actions) :
    Action.change (.measure .textHeight height) ∈ actions := by
  induction actions generalizing stream with
  | nil => exact absurd asked List.not_mem_nil
  | cons action rest ih =>
      rcases List.mem_append.mp asked with asked | later
      · rcases List.mem_append.mp asked with set | added
        · unfold Composer.Action.heightActions at set
          split at set
          · cases List.mem_singleton.mp set
            exact List.mem_cons_self
          · exact absurd set List.not_mem_nil
        · simp at added
      · exact List.mem_cons_of_mem _ (ih later)

theorem addedTexts_pageActions (stream : Stream) (actions : List Action) :
    Pages.addedTexts (stream.pageActions actions) = stream.rowTexts actions := by
  induction actions generalizing stream with
  | nil => rfl
  | cons action rest ih =>
      have heights : Pages.addedTexts action.heightActions = [] := by
        unfold Composer.Action.heightActions
        split <;> rfl
      rw [pageActions, Pages.addedTexts_append, Pages.addedTexts_append, heights,
        Pages.addedTexts_add, ih, rowTexts_cons, List.nil_append]

end Stream

/-- A token without a problem sets the height of the pages of the main text to a positive number. -/
theorem Token.height_pos {token : Token} (clean : token.problem? .normal = none)
    (unnoted : token.lexeme.noteBody? = none) {height : Nat}
    (asked : Action.change (.measure .textHeight height) ∈ token.lexeme.actions) : 0 < height := by
  cases given : token.directive with
  | error problem => simp [Token.problem?_of_error given] at clean
  | ok directive =>
      rw [Token.problem?_of_ok given] at clean
      rcases directive.note_or_plain with ⟨command, body, rfl⟩ | plain
      · obtain ⟨text, noted, -⟩ := Token.noteBody?_of_directive_eq_note given
        simp [noted] at unnoted
      · rw [← (Token.actions_of_directive given plain).2] at asked
        cases directive with
        | measure kind value command argument =>
            cases List.mem_singleton.mp asked
            rw [Directive.problem?] at clean
            have allowed : ¬∃ least ∈ Measure.least? .normal .textHeight, value < least := by
              simpa using clean
            have least : (1 : Int) ≤ value := Int.not_lt.mp fun low => allowed ⟨1, rfl, low⟩
            omega
        | _ => simp [Directive.actions] at asked

theorem height_pos_of_mem_mainActions {tokens : List Token}
    (clean : firstProblem? .normal tokens = none) {number height : Nat}
    (asked : Action.change (.measure .textHeight height) ∈
      mainActions number (tokens.map Token.lexeme)) : 0 < height := by
  induction tokens generalizing number with
  | nil => exact absurd asked List.not_mem_nil
  | cons token rest ih =>
      rw [firstProblem?_cons, Option.or_eq_none_iff, Option.or_eq_none_iff] at clean
      obtain ⟨first, -, later⟩ := clean
      rw [List.map_cons, mainActions] at asked
      split at asked
      · rcases List.mem_cons.mp asked with mark | asked
        · cases mark
        · exact ih later asked
      · rename_i unnoted
        rcases List.mem_append.mp asked with asked | asked
        · exact Token.height_pos first unnoted asked
        · exact ih later asked

/-- **The lines of a document are put on pages** by asking for positive heights and for the rows
that it is composed in. -/
theorem exists_pageActions {presets : Presets} (valid : presets.Valid) {source : List Char}
    (clean : firstProblem? .normal (tokens source) = none) :
    ∃ actions, Pages.PositiveHeights presets.main.textHeight actions ∧
      Pages.addedTexts actions = composedTexts presets (lexemes source) ∧
      pageLines presets source = (Pages.new presets.main.textHeight).delivered actions := by
  let main := mainActions 1 (lexemes source) ++ [.endParagraph]
  let notes := (noteStream presets (noteBodies (lexemes source))).pages.lines
  have spelled : (tokens source).map Token.lexeme = lexemes source := Token.map_lexeme_place _ _
  refine ⟨(Stream.new presets.main).pageActions main ++ notes.map .add, ⟨?_, ?_⟩, ?_, ?_⟩
  · have positive := (valid .main).2
    change ∀ height ∈ presets.main.textHeight, 0 < height at positive
    cases bound : presets.main.textHeight with
    | none => rfl
    | some height => exact decide_eq_true (positive height bound)
  · intro height asked
    rcases List.mem_append.mp asked with asked | added
    · have set : Action.change (.measure .textHeight height) ∈ mainActions 1 (lexemes source) := by
        simpa [main] using Stream.setHeight_mem_pageActions asked
      exact height_pos_of_mem_mainActions clean (spelled ▸ set)
    · simp at added
  · rw [Pages.addedTexts_append, Stream.addedTexts_pageActions, Pages.addedTexts_add]
    rfl
  · have ran := Stream.run_pageActions (Stream.new presets.main) main
    change (Pages.new presets.main.textHeight).run _ = _ at ran
    rw [pageLines_eq valid clean, Pages.delivered, Pages.run_append, ran, Pages.run_add]
    rfl

/-! ## Cutting lines into pages -/

/-- The pages that lines are on: a line that opens a page is the first of the next one. -/
def pagesOf (lines : List PageLine) : List (List PageLine) :=
  lines.splitBy fun _ next => !next.opensPage

/-- Lines cut before each one that starts with a page mark. -/
def cutAtMarks (lines : List (List Char)) : List (List (List Char)) :=
  lines.splitBy fun _ next => !decide (StartsWithMark next)

/-- If exactly the lines that open a page start with a mark, cutting before the marks gives the
pages. -/
theorem cutAtMarks_render {lines : List PageLine}
    (marked : ∀ line ∈ lines, StartsWithMark line.render ↔ line.opensPage) :
    cutAtMarks (lines.map PageLine.render) = (pagesOf lines).map (List.map PageLine.render) := by
  have same : ∀ line ∈ lines, decide (StartsWithMark line.render) = line.opensPage := by
    intro line member
    rw [Bool.eq_iff_iff, decide_eq_true_eq]
    exact marked line member
  have within : ∀ page ∈ pagesOf lines, ∀ line ∈ page, line ∈ lines := by
    intro page among line member
    rw [← List.flatten_splitBy (fun _ next => !PageLine.opensPage next) lines]
    exact List.mem_flatten_of_mem among member
  rw [cutAtMarks, List.splitBy_eq_iff]
  refine ⟨?_, ?_, ?_, ?_⟩
  · rw [← List.map_flatten, pagesOf, List.flatten_splitBy]
  · intro member
    obtain ⟨page, among, empty⟩ := List.mem_map.mp member
    rw [List.map_eq_nil_iff] at empty
    exact List.nil_notMem_splitBy _ _ (empty ▸ among)
  · intro page member
    obtain ⟨page, among, rfl⟩ := List.mem_map.mp member
    rw [List.isChain_map]
    refine (List.isChain_of_mem_splitBy among).imp_of_mem_imp fun _ next _ member joined => ?_
    rwa [same next (within page among next member)]
  · rw [List.isChain_map]
    refine (List.isChain_getLast_head_splitBy _ _).imp_of_mem_imp fun page next _ among cut => ?_
    obtain ⟨inhabited, inhabitedNext, opens⟩ := cut
    refine ⟨by simpa using inhabited, by simpa using inhabitedNext, ?_⟩
    rw [List.head_map, same _ (within next among _ (List.head_mem inhabitedNext))]
    exact opens

/-! ## Formatting -/

/-- How the lines of a formatted document show its pages. They are the lines that come of putting
its rows on pages of positive heights, the first of which is not marked. Each of them starts with
the character of page marks if it opens a page, or if it shows a row without indentation whose first
word starts with that character. No line opens a page if no height is ever set. The words of a
source without that character do not have it either, so then exactly the lines that open a page
start with it, and cutting before these gives the pages. -/
structure ShowsPages (presets : Presets) (source : List Char) (lines : List (List Char)) :
    Prop where
  lines_eq : lines = (pageLines presets source).map PageLine.render
  paged : ∃ actions, Pages.PositiveHeights presets.main.textHeight actions ∧
    Pages.addedTexts actions = composedTexts presets (lexemes source) ∧
    pageLines presets source = (Pages.new presets.main.textHeight).delivered actions
  first : ∀ line, (pageLines presets source).head? = some line → line.opensPage = false
  starts : ∃ rows : List Row, rows.flatMap Row.words = documentWords (lexemes source) ∧
    List.Forall₂ Row.ShownBy rows (pageLines presets source)
  unset : presets.main.textHeight = none → HeightUnset (lexemes source) →
    ∀ line ∈ pageLines presets source, line.opensPage = false
  plain : pageBreak ∉ source →
    (∀ line ∈ pageLines presets source, StartsWithMark line.render ↔ line.opensPage) ∧
      cutAtMarks lines = (pagesOf (pageLines presets source)).map (List.map PageLine.render)
  unmarked : pageBreak ∉ source → presets.main.textHeight = none → HeightUnset (lexemes source) →
    ∀ line ∈ lines, ¬StartsWithMark line

/-- A row whose words lack the character of page marks does not start with it. -/
theorem Row.not_startsWithMark {row : Row} (absent : ∀ word ∈ row.words, pageBreak ∉ word) :
    ¬row.StartsWithMark := by
  rintro ⟨word, rest, gaps, rfl, starts⟩
  exact absent word List.mem_cons_self starts.mem

theorem exists_shown_rows (presets : Presets) (units : List Lexeme) :
    ∃ rows : List Row, rows.flatMap Row.words = documentWords units ∧
      List.Forall₂ Row.ShownBy rows (composedPages presets units).held.toList := by
  obtain ⟨twins, paged, words⟩ :=
    exists_twins_composedPages presets presets.main.justify presets.endnote.justify units
  obtain ⟨rows, spelled, shown⟩ := exists_rows paged.same
  exact ⟨rows, spelled.trans words, paged.firstHeld ▸ shown⟩

theorem startsWithMark_iff_of_rows {rows : List Row} {lines : List PageLine}
    (shown : List.Forall₂ Row.ShownBy rows lines)
    (absent : ∀ word ∈ rows.flatMap Row.words, pageBreak ∉ word) :
    ∀ line ∈ lines, StartsWithMark line.render ↔ line.opensPage := by
  induction shown with
  | nil => simp
  | cons first rest ih =>
      rw [List.flatMap_cons, List.forall_mem_append] at absent
      refine List.forall_mem_cons.mpr ⟨?_, ih absent.2⟩
      exact first.starts.trans (or_iff_left (Row.not_startsWithMark absent.1))

theorem not_opensPage_of_unset {presets : Presets} (valid : presets.Valid) {source : List Char}
    (clean : firstProblem? .normal (tokens source) = none)
    (unbounded : presets.main.textHeight = none) (unset : HeightUnset (lexemes source)) :
    ∀ line ∈ pageLines presets source, line.opensPage = false := by
  rw [pageLines_eq valid clean, held_composedPages unset, unbounded, Pages.laid_of_unbounded rfl]
  exact List.forall_mem_map.mpr fun _ _ => rfl

/-- **Pages can be told from the output** of a formatted document, but for words of the source that
start with the character of page marks. -/
theorem format_shows_pages {presets : Presets} {source : List Char} {lines : List (List Char)}
    (formatted : (format presets source).outcome = .ok lines) :
    ShowsPages presets source lines := by
  have valid := valid_of_format formatted
  rw [outcome_format_eq valid] at formatted
  cases clean : firstProblem? .normal (tokens source) with
  | some problem => simp [clean] at formatted
  | none =>
      rw [clean] at formatted
      have held := pageLines_eq valid clean
      have lines_eq : lines = (pageLines presets source).map PageLine.render := by
        rw [held]
        exact (Except.ok.inj formatted).symm
      obtain ⟨actions, positive, added, paged⟩ := exists_pageActions valid clean
      obtain ⟨rows, words, shown⟩ := exists_shown_rows presets (lexemes source)
      rw [← held] at shown
      have plain (absent : pageBreak ∉ source) := startsWithMark_iff_of_rows shown
        (words ▸ pageBreak_not_mem_documentWords absent)
      have unset := not_opensPage_of_unset valid clean
      refine ⟨lines_eq, ⟨actions, positive, added, paged⟩, fun line starts => ?_,
        ⟨rows, words, shown⟩, unset, fun absent => ⟨plain absent, ?_⟩,
        fun absent unbounded free => ?_⟩
      · exact Pages.not_opensPage_of_first positive (paged ▸ starts)
      · rw [lines_eq, cutAtMarks_render (plain absent)]
      · rw [lines_eq]
        refine List.forall_mem_map.mpr fun line member starts => ?_
        have opens := (plain absent line member).mp starts
        exact absurd opens (by simp [unset unbounded free line member])

/-- Two lines on a page, and a word that starts with the character of page marks. -/
theorem format_shows_pages_of_two :
    ShowsPages .default "\\textheight\x7b2\x7d\\parindent\x7b0\x7da\n\n\x0cb\n\nc".toList
      ["a".toList, [], "\x0c\x0cb".toList, [], "\x0cc".toList] :=
  format_shows_pages (show (format .default _).outcome = _ by decide +kernel)

/-- Without any height of pages, a line starts with the character of page marks because its first
word does. -/
theorem line_starts_with_word :
    let source := "\\parindent\x7b0\x7d\x0ca".toList
    HeightUnset (lexemes source) ∧ Presets.default.main.textHeight = none ∧
      (format .default source).outcome = .ok ["\x0ca".toList] ∧
      pageLines .default source = [⟨false, "\x0ca".toList⟩] ∧ StartsWithMark "\x0ca".toList := by
  decide +kernel

end Galley
