import Galley.Proofs.ComposedWords

/-! # Lines on their way through pages

Paging adds each text to the lines held or, if it is empty, drops it (`Galley.Pages.held_addAll`).
The texts that are not empty are kept in their order
(`Galley.Pages.inhabited_laid`), so paging changes nothing but blanks and page marks
(`Galley.Pages.solid_lines_addAll`), and pages without bound keep every text as it is
(`Galley.Pages.laid_of_unbounded`). A stream composes and pages in one run, and its lines show the
rows of the composer's run (`Galley.Stream.solid_lines_run`).
-/

namespace Galley

namespace PageLine

theorem solid_render (line : PageLine) : solid line.render = solid line.text := by
  unfold render
  split
  · exact List.filter_cons_of_neg (by simp [pageBreak])
  · rfl

/-- A line shows nothing but its text and, before it, at most a page mark. -/
theorem render_eq (line : PageLine) :
    ∃ mark, (mark = [] ∨ mark = [pageBreak]) ∧ line.render = mark ++ line.text := by
  unfold render
  split
  · exact ⟨[pageBreak], Or.inr rfl, rfl⟩
  · exact ⟨[], Or.inl rfl, rfl⟩

end PageLine

namespace Pages

/-- The lines that pages hold for a text: one, or none if the text is dropped. -/
def placed (pages : Pages) (text : List Char) : List PageLine :=
  if text = [] then if pages.height = some pages.used then [] else [⟨false, []⟩]
  else [⟨!pages.hasRoom, text⟩]

/-- The lines that pages hold for texts that are added in order. -/
def laid (pages : Pages) : List (List Char) → List PageLine
  | [] => []
  | text :: rest => pages.placed text ++ (pages.add text).laid rest

theorem held_add (pages : Pages) (text : List Char) :
    (pages.add text).held.toList = pages.held.toList ++ pages.placed text := by
  unfold add placed
  by_cases empty : text = []
  · subst empty
    by_cases full : pages.height = some pages.used <;> simp [full]
  · cases room : pages.hasRoom <;> simp [empty]

@[simp] theorem height_add (pages : Pages) (text : List Char) :
    (pages.add text).height = pages.height := by
  unfold add
  (repeat' split) <;> rfl

@[simp] theorem addAll_nil (pages : Pages) : pages.addAll [] = pages := rfl

@[simp] theorem addAll_cons (pages : Pages) (text : List Char) (rest : List (List Char)) :
    pages.addAll (text :: rest) = (pages.add text).addAll rest := rfl

theorem addAll_append (pages : Pages) (first second : List (List Char)) :
    pages.addAll (first ++ second) = (pages.addAll first).addAll second :=
  List.foldl_append

/-- Lines are only ever added behind those that are held. -/
theorem held_addAll (pages : Pages) (texts : List (List Char)) :
    (pages.addAll texts).held.toList = pages.held.toList ++ pages.laid texts := by
  induction texts generalizing pages with
  | nil => simp [laid]
  | cons text rest ih => rw [addAll_cons, ih, held_add, laid, List.append_assoc]

theorem lines_addAll (pages : Pages) (texts : List (List Char)) :
    (pages.addAll texts).lines = pages.lines ++ (pages.laid texts).map PageLine.render := by
  rw [lines, held_addAll, List.map_append, lines]

theorem inhabited_laid (pages : Pages) (texts : List (List Char)) :
    ((pages.laid texts).map PageLine.text).filter (· ≠ []) = texts.filter (· ≠ []) := by
  induction texts generalizing pages with
  | nil => rfl
  | cons text rest ih =>
      have one : ((pages.placed text).map PageLine.text).filter (· ≠ []) =
          [text].filter (· ≠ []) := by
        unfold placed
        by_cases empty : text = []
        · by_cases full : pages.height = some pages.used <;> simp [empty, full]
        · simp [empty]
      rw [laid, List.map_append, List.filter_append, ih, one, ← List.filter_append,
        List.singleton_append]

/-- The lines of text that pages hold, without their page marks. -/
def textLines (pages : Pages) : List (List Char) :=
  (pages.held.toList.map PageLine.text).filter (· ≠ [])

theorem textLines_addAll (pages : Pages) (texts : List (List Char)) :
    (pages.addAll texts).textLines = pages.textLines ++ texts.filter (· ≠ []) := by
  rw [textLines, held_addAll, List.map_append, List.filter_append, inhabited_laid, textLines]

theorem flatten_inhabited (texts : List (List Char)) :
    (texts.filter (· ≠ [])).flatten = texts.flatten := by
  induction texts with
  | nil => rfl
  | cons text rest ih =>
      by_cases empty : text = []
      · rw [List.filter_cons_of_neg (by simpa using empty), ih, empty, List.flatten_cons,
          List.nil_append]
      · rw [List.filter_cons_of_pos (by simpa using empty), List.flatten_cons, ih,
          List.flatten_cons]

/-- **Text through pages.** Blanks and page marks apart, the lines held show what was held before
and the texts that were added. -/
theorem solid_lines_addAll (pages : Pages) (texts : List (List Char)) :
    solid (pages.addAll texts).lines.flatten =
      solid pages.lines.flatten ++ solid texts.flatten := by
  have unmarked (laid : List PageLine) :
      solid (laid.map PageLine.render).flatten = solid (laid.map PageLine.text).flatten := by
    induction laid with
    | nil => rfl
    | cons line rest ih => simp [PageLine.solid_render, ih]
  have kept := congrArg (fun texts => solid texts.flatten) (pages.inhabited_laid texts)
  simp only [flatten_inhabited] at kept
  rw [lines_addAll, List.flatten_append, solid_append, unmarked, kept]

/-- A text that is not empty gets a line, perhaps with a page mark before it. -/
theorem lines_addAll_cons (pages : Pages) {text : List Char} (inhabited : text ≠ [])
    (rest : List (List Char)) :
    ∃ mark after, (mark = [] ∨ mark = [pageBreak]) ∧
      (pages.addAll (text :: rest)).lines = pages.lines ++ (mark ++ text) :: after := by
  obtain ⟨mark, marks, same⟩ := (PageLine.mk (!pages.hasRoom) text).render_eq
  refine ⟨mark, ((pages.add text).laid rest).map PageLine.render, marks, ?_⟩
  rw [lines_addAll, laid, List.map_append, placed, if_neg inhabited, List.map_cons, same]
  rfl

/-- Pages without bound keep every text and mark none. -/
theorem laid_of_unbounded {pages : Pages} (unbounded : pages.height = none)
    (texts : List (List Char)) : pages.laid texts = texts.map (PageLine.mk false) := by
  induction texts generalizing pages with
  | nil => rfl
  | cons text rest ih =>
      have one : pages.placed text = [⟨false, text⟩] := by
        by_cases empty : text = [] <;> simp [placed, hasRoom, unbounded, empty]
      rw [laid, one, ih (by rw [height_add, unbounded]), List.map_cons, List.singleton_append]

theorem lines_addAll_of_unbounded {pages : Pages} (unbounded : pages.height = none)
    (texts : List (List Char)) : (pages.addAll texts).lines = pages.lines ++ texts := by
  rw [lines_addAll, laid_of_unbounded unbounded, List.map_map]
  exact congrArg _ (List.map_id' texts)

end Pages

namespace Stream

/-- Perform actions in order. -/
def run (stream : Stream) (actions : List Composer.Action) : Stream :=
  actions.foldl step stream

@[simp] theorem run_nil (stream : Stream) : stream.run [] = stream := rfl

@[simp] theorem run_cons (stream : Stream) (action : Composer.Action)
    (rest : List Composer.Action) :
    stream.run (action :: rest) = (stream.step action).run rest := rfl

theorem run_append (stream : Stream) (first second : List Composer.Action) :
    stream.run (first ++ second) = (stream.run first).run second :=
  List.foldl_append

/-- The rows that actions finish, as texts. -/
def rowTexts (stream : Stream) (actions : List Composer.Action) : List (List Char) :=
  (stream.composer.run actions).2.map Row.text

theorem composer_run (stream : Stream) (actions : List Composer.Action) :
    (stream.run actions).composer = (stream.composer.run actions).1 := by
  induction actions generalizing stream with
  | nil => rfl
  | cons action rest ih => rw [run_cons, ih]; rfl

theorem rowTexts_cons (stream : Stream) (action : Composer.Action)
    (rest : List Composer.Action) :
    stream.rowTexts (action :: rest) =
      stream.finished action ++ (stream.step action).rowTexts rest :=
  List.map_append

theorem rowTexts_append (stream : Stream) (first second : List Composer.Action) :
    stream.rowTexts (first ++ second) =
      stream.rowTexts first ++ (stream.run first).rowTexts second := by
  rw [rowTexts, Composer.run_append, List.map_append, rowTexts, rowTexts, composer_run]

theorem lines_pagesUnder (stream : Stream) (action : Composer.Action) :
    (stream.pagesUnder action).lines = stream.pages.lines := by
  unfold pagesUnder
  split <;> rfl

/-- **Text through a stream.** Blanks and page marks apart, the lines held after a run show what
was held before it and the rows that it finished. -/
theorem solid_lines_run (stream : Stream) (actions : List Composer.Action) :
    solid (stream.run actions).pages.lines.flatten =
      solid stream.pages.lines.flatten ++ solid (stream.rowTexts actions).flatten := by
  induction actions generalizing stream with
  | nil => simp [rowTexts, Composer.run]
  | cons action rest ih =>
      have first : solid (stream.step action).pages.lines.flatten =
          solid stream.pages.lines.flatten ++ solid (stream.finished action).flatten := by
        rw [step, Pages.solid_lines_addAll, lines_pagesUnder]
      rw [run_cons, ih, first, rowTexts_cons, List.flatten_append, solid_append, List.append_assoc]

theorem held_pagesUnder (stream : Stream) (action : Composer.Action) :
    (stream.pagesUnder action).held = stream.pages.held := by
  unfold pagesUnder
  split <;> rfl

/-- Whenever the height of pages is set, a run adds lines behind those that are held, and the rows
that it finishes are the lines of text among them. -/
theorem exists_held_run (stream : Stream) (actions : List Composer.Action) :
    ∃ more : List PageLine,
      (stream.run actions).pages.held.toList = stream.pages.held.toList ++ more ∧
      (more.map PageLine.text).filter (· ≠ []) = (stream.rowTexts actions).filter (· ≠ []) := by
  induction actions generalizing stream with
  | nil => exact ⟨[], (List.append_nil _).symm, rfl⟩
  | cons action rest ih =>
      obtain ⟨more, held, texts⟩ := ih (stream.step action)
      refine ⟨(stream.pagesUnder action).laid (stream.finished action) ++ more, ?_, ?_⟩
      · rw [run_cons, held, step, Pages.held_addAll, held_pagesUnder, List.append_assoc]
      · rw [List.map_append, List.filter_append, texts, Pages.inhabited_laid, rowTexts_cons,
          List.filter_append]

theorem textLines_run (stream : Stream) (actions : List Composer.Action) :
    (stream.run actions).pages.textLines =
      stream.pages.textLines ++ (stream.rowTexts actions).filter (· ≠ []) := by
  obtain ⟨more, held, texts⟩ := stream.exists_held_run actions
  rw [Pages.textLines, held, List.map_append, List.filter_append, texts, Pages.textLines]

/-- A step that does not set the height of pages lays what it finishes on the pages. -/
theorem pages_step (stream : Stream) {action : Composer.Action}
    (other : ∀ height, action ≠ .change (.measure .textHeight height)) :
    (stream.step action).pages = stream.pages.addAll (stream.finished action) := by
  have under : stream.pagesUnder action = stream.pages := by
    unfold pagesUnder
    split
    · exact absurd rfl (other _)
    · rfl
  rw [step, under]

/-- As long as the height of pages is not set, a run pages its rows one after the other. -/
theorem pages_run {stream : Stream} {actions : List Composer.Action}
    (fixed : ∀ height, .change (.measure .textHeight height) ∉ actions) :
    (stream.run actions).pages = stream.pages.addAll (stream.rowTexts actions) := by
  induction actions generalizing stream with
  | nil => rfl
  | cons action rest ih =>
      have other (height : Nat) : action ≠ .change (.measure .textHeight height) := fun same =>
        fixed height (same ▸ List.mem_cons_self)
      rw [run_cons, ih fun height member => fixed height (List.mem_cons_of_mem _ member),
        rowTexts_cons, Pages.addAll_append, stream.pages_step other]

end Stream
end Galley
