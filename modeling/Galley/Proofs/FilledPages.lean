import Galley.Proofs.PagedLines

/-! # Pages of a fixed height are filled

Lines that are added to pages of a fixed height, and perhaps taken away in between, form pages that
are full but for the last, and each page after the first starts with a line of text that carries the
page mark. Main statement: `Galley.Pages.fills_pages`.
-/

namespace Galley

namespace Pages

/-! ## What is asked of pages -/

/-- What can be asked of pages. -/
inductive Action where
  /-- Add a line; an empty text is a skipped line. -/
  | add (text : List Char)
  /-- Change the height of the current and all later pages. -/
  | setHeight (height : Nat)
  /-- Take all lines away. -/
  | take
deriving DecidableEq

/-- Perform an action and return the lines that it takes away. -/
def perform (pages : Pages) : Action → Pages × List PageLine
  | .add text => (pages.add text, [])
  | .setHeight height => (pages.setHeight height, [])
  | .take => pages.take

/-- Perform actions in order and return all lines that they take away. -/
def run (pages : Pages) : List Action → Pages × List PageLine
  | [] => (pages, [])
  | action :: rest =>
      let next := pages.perform action
      let last := next.1.run rest
      (last.1, next.2 ++ last.2)

/-- The lines that actions take away, followed by those that are still held after them. -/
def delivered (pages : Pages) (actions : List Action) : List PageLine :=
  (pages.run actions).2 ++ (pages.run actions).1.held.toList

/-- The texts that actions add. -/
def addedTexts (actions : List Action) : List (List Char) :=
  actions.filterMap fun
    | .add text => some text
    | .setHeight _ | .take => none

theorem addedTexts_append (first second : List Action) :
    addedTexts (first ++ second) = addedTexts first ++ addedTexts second :=
  List.filterMap_append

theorem addedTexts_add (texts : List (List Char)) : addedTexts (texts.map .add) = texts := by
  rw [addedTexts, List.filterMap_map]
  exact List.filterMap_some

theorem run_append (pages : Pages) (first second : List Action) :
    pages.run (first ++ second) =
      (((pages.run first).1.run second).1,
        (pages.run first).2 ++ ((pages.run first).1.run second).2) := by
  induction first generalizing pages with
  | nil => rfl
  | cons action first ih => rw [List.cons_append, run, ih, run, List.append_assoc]

theorem run_add (pages : Pages) (texts : List (List Char)) :
    pages.run (texts.map .add) = (pages.addAll texts, []) := by
  induction texts generalizing pages with
  | nil => rfl
  | cons text rest ih => rw [List.map_cons, run, perform, ih, addAll_cons, List.nil_append]

/-- Where lines are put does not depend on the lines held. -/
theorem laid_congr (first second : Pages) (height : first.height = second.height)
    (used : first.used = second.used) (texts : List (List Char)) :
    first.laid texts = second.laid texts := by
  induction texts generalizing first second with
  | nil => rfl
  | cons text rest ih =>
      have room : first.hasRoom = second.hasRoom := by rw [hasRoom, hasRoom, height, used]
      have next : (first.add text).used = (second.add text).used := by
        simp only [add, height, used, room]
        (repeat' split) <;> simp [used]
      rw [laid, laid, placed, placed, height, used, room,
        ih _ _ (by rw [height_add, height_add, height]) next]

/-- Taking lines away changes nothing about what is delivered. -/
theorem delivered_eq {actions : List Action} (fixed : ∀ height, .setHeight height ∉ actions)
    (pages : Pages) :
    pages.delivered actions = pages.held.toList ++ pages.laid (addedTexts actions) := by
  induction actions generalizing pages with
  | nil => simp [delivered, run, addedTexts, laid]
  | cons action rest ih =>
      have fixedRest : ∀ height, .setHeight height ∉ rest := fun height member =>
        fixed height (List.mem_cons_of_mem _ member)
      cases action with
      | add text =>
          have later := ih fixedRest (pages.add text)
          rw [held_add, List.append_assoc] at later
          exact later
      | setHeight height => exact absurd List.mem_cons_self (fixed height)
      | take =>
          have later := ih fixedRest pages.take.1
          have same : pages.take.1.laid (addedTexts rest) = pages.laid (addedTexts rest) :=
            laid_congr pages.take.1 pages rfl rfl _
          rw [same] at later
          rw [delivered, run, List.append_assoc]
          exact congrArg (pages.held.toList ++ ·) later

theorem height_addAll (pages : Pages) (texts : List (List Char)) :
    (pages.addAll texts).height = pages.height := by
  induction texts generalizing pages with
  | nil => rfl
  | cons text rest ih => rw [addAll_cons, ih, height_add]

theorem laid_append (pages : Pages) (first second : List (List Char)) :
    pages.laid (first ++ second) = pages.laid first ++ (pages.addAll first).laid second := by
  induction first generalizing pages with
  | nil => rfl
  | cons text first ih => rw [List.cons_append, laid, laid, ih, addAll_cons, List.append_assoc]

theorem sublist_laid (pages : Pages) (texts : List (List Char)) :
    ((pages.laid texts).map PageLine.text).Sublist texts := by
  induction texts generalizing pages with
  | nil => exact .slnil
  | cons text rest ih =>
      have one : ((pages.placed text).map PageLine.text).Sublist [text] := by
        unfold placed
        by_cases empty : text = []
        · by_cases full : pages.height = some pages.used <;> simp [empty, full]
        · simp [empty]
      rw [laid, List.map_append]
      exact one.append (ih (pages.add text))

end Pages

/-! ## Lines on pages -/

/-- No line carries a page mark. -/
def Unmarked (lines : List PageLine) : Prop :=
  ∀ line ∈ lines, line.render = line.text

/-- A page that starts with a line of text behind one page mark and has no other marks. -/
def IsLaterPage (page : List PageLine) : Prop :=
  ∃ line rest, page = line :: rest ∧ line.text ≠ [] ∧ line.render = pageBreak :: line.text ∧
    Unmarked rest

/-- Lines split into pages of a height: the earlier ones are full and the last has room for its
lines. The first page has no marks, every later one starts with a marked line of text. -/
structure OnPages (height : Nat) (lines : List PageLine) (earlier : List (List PageLine))
    (last : List PageLine) : Prop where
  lines_eq : lines = earlier.flatten ++ last
  full : ∀ page ∈ earlier, page.length = height
  bounded : last.length ≤ height
  marks : ∃ first later, earlier ++ [last] = first :: later ∧ Unmarked first ∧
    ∀ page ∈ later, IsLaterPage page

theorem Unmarked.append {lines : List PageLine} (unmarked : Unmarked lines) (text : List Char) :
    Unmarked (lines ++ [⟨false, text⟩]) := by
  intro line member
  rcases List.mem_append.mp member with early | late
  · exact unmarked line early
  · cases List.mem_singleton.mp late
    rfl

namespace OnPages

variable {height : Nat} {lines : List PageLine} {earlier : List (List PageLine)}
  {last : List PageLine}

theorem nil (height : Nat) : OnPages height [] [] [] where
  lines_eq := rfl
  full := by simp
  bounded := Nat.zero_le height
  marks := ⟨[], [], rfl, by simp [Unmarked], by simp⟩

/-- A line takes the next place on the last page. -/
theorem fill (onPages : OnPages height lines earlier last) (room : last.length < height)
    (text : List Char) :
    OnPages height (lines ++ [⟨false, text⟩]) earlier (last ++ [⟨false, text⟩]) where
  lines_eq := by rw [onPages.lines_eq, List.append_assoc]
  full := onPages.full
  bounded := by
    rw [List.length_append, List.length_singleton]
    exact room
  marks := by
    obtain ⟨first, later, pages, unmarked, opened⟩ := onPages.marks
    cases earlier with
    | nil =>
        obtain ⟨rfl, rfl⟩ := List.cons.inj pages
        exact ⟨_, [], rfl, unmarked.append text, by simp⟩
    | cons page earlier =>
        obtain ⟨rfl, rfl⟩ := List.cons.inj pages
        refine ⟨page, earlier ++ [last ++ [⟨false, text⟩]], rfl, unmarked, fun other member => ?_⟩
        rcases List.mem_append.mp member with early | late
        · exact opened other (List.mem_append_left _ early)
        · cases List.mem_singleton.mp late
          obtain ⟨line, rest, rfl, inhabited, marked, others⟩ :=
            opened last (List.mem_append_right _ List.mem_cons_self)
          exact ⟨line, rest ++ [⟨false, text⟩], rfl, inhabited, marked, others.append text⟩

/-- A line of text opens a page behind a full one. -/
theorem turn (onPages : OnPages height lines earlier last) (positive : 0 < height)
    (full : last.length = height) {text : List Char} (inhabited : text ≠ []) :
    OnPages height (lines ++ [⟨true, text⟩]) (earlier ++ [last]) [⟨true, text⟩] where
  lines_eq := by
    rw [onPages.lines_eq, List.flatten_append, List.flatten_singleton]
  full := by
    intro page member
    rcases List.mem_append.mp member with early | late
    · exact onPages.full page early
    · rw [List.mem_singleton.mp late, full]
  bounded := positive
  marks := by
    obtain ⟨first, later, pages, unmarked, opened⟩ := onPages.marks
    refine ⟨first, later ++ [[⟨true, text⟩]], by rw [pages, List.cons_append], unmarked, ?_⟩
    intro page member
    rcases List.mem_append.mp member with early | late
    · exact opened page early
    · rw [List.mem_singleton.mp late]
      exact ⟨⟨true, text⟩, [], rfl, inhabited, rfl, by simp [Unmarked]⟩

end OnPages

/-! ## Filling -/

namespace Pages

/-- On pages that have used as many lines as the last page has, a line is dropped if it is a skip
and that page is full. Otherwise it is put there, marked if the page is full. -/
theorem placed_eq {height : Nat} {lines last : List PageLine} {earlier : List (List PageLine)}
    (onPages : OnPages height lines earlier last) {pages : Pages}
    (bound : pages.height = some height) (used : pages.used = last.length) (text : List Char) :
    pages.placed text = if text = [] ∧ last.length = height then []
      else [⟨decide (last.length = height), text⟩] := by
  have bounded := onPages.bounded
  have room : pages.hasRoom = decide (last.length < height) := by
    rw [hasRoom, bound, used, Option.all_some]
  by_cases empty : text = []
  · by_cases full : last.length = height
    · simp [placed, empty, bound, used, full]
    · simp [placed, empty, bound, used, full, Ne.symm full]
  · by_cases full : last.length = height
    · simp [placed, empty, room, full]
    · have less : last.length < height := by omega
      simp [placed, empty, room, full, less]

/-- **One line.** Adding a line to the last page, or behind it, keeps lines on pages. -/
theorem onPages_add {height : Nat} {lines last : List PageLine} {earlier : List (List PageLine)}
    (onPages : OnPages height lines earlier last) (positive : 0 < height) {pages : Pages}
    (bound : pages.height = some height) (used : pages.used = last.length) (text : List Char) :
    ∃ earlier last, OnPages height (lines ++ pages.placed text) earlier last ∧
      (pages.add text).used = last.length := by
  rw [placed_eq onPages bound used]
  have bounded := onPages.bounded
  have room : pages.hasRoom = decide (last.length < height) := by
    rw [hasRoom, bound, used, Option.all_some]
  by_cases full : last.length = height
  · by_cases empty : text = []
    · refine ⟨earlier, last, by simpa [empty, full] using onPages, ?_⟩
      simp [add, empty, bound, used, full]
    · have turned := onPages.turn positive full empty
      refine ⟨_, _, by simpa [empty, full] using turned, ?_⟩
      simp [add, empty, room, full]
  · have less : last.length < height := by omega
    have filled := onPages.fill less text
    refine ⟨_, _, by simpa [full] using filled, ?_⟩
    have other : ¬height = last.length := fun same => full same.symm
    by_cases empty : text = [] <;> simp [add, empty, room, bound, used, less, other]

/-- **All lines.** Lines that are added one after the other are kept on pages. -/
theorem onPages_laid {height : Nat} {lines last : List PageLine} {earlier : List (List PageLine)}
    (onPages : OnPages height lines earlier last) (positive : 0 < height) {pages : Pages}
    (bound : pages.height = some height) (used : pages.used = last.length)
    (texts : List (List Char)) :
    ∃ earlier last, OnPages height (lines ++ pages.laid texts) earlier last ∧
      (pages.addAll texts).used = last.length := by
  induction texts generalizing pages lines earlier last with
  | nil => exact ⟨earlier, last, by rwa [laid, List.append_nil], used⟩
  | cons text rest ih =>
      obtain ⟨_, _, next, nextUsed⟩ := onPages_add onPages positive bound used text
      rw [laid, ← List.append_assoc, addAll_cons]
      exact ih next (by rw [height_add, bound]) nextUsed

/-- What is delivered after actions on pages of a height. It is on pages, and each text that is
added, after whatever was delivered before it, is either the next line, which is marked exactly if
the last page is full, or it is a skip that finds the last page full and is dropped. So the lines
are added texts in their order, all texts that are not empty among them, and it does not matter when
lines are taken away. -/
structure Filled (height : Nat) (delivered : List Action → List PageLine) (actions : List Action) :
    Prop where
  onPages : ∃ earlier last, OnPages height (delivered actions) earlier last
  arrival : ∀ before text after, actions = before ++ .add text :: after →
    ∃ earlier last later, OnPages height (delivered before) earlier last ∧
      delivered actions = delivered before ++
        (if text = [] ∧ last.length = height then []
          else [⟨decide (last.length = height), text⟩]) ++ later ∧
      (later.map PageLine.text).Sublist (addedTexts after)
  in_order : ((delivered actions).map PageLine.text).Sublist (addedTexts actions)
  texts_kept : ((delivered actions).map PageLine.text).filter (· ≠ []) =
    (addedTexts actions).filter (· ≠ [])
  takes_ignored : delivered actions = delivered ((addedTexts actions).map .add)

/-- **Pages of a fixed height are filled** by the lines that are added to them. -/
theorem fills_pages {height : Nat} (positive : 0 < height) {actions : List Action}
    (fixed : ∀ other, .setHeight other ∉ actions) :
    Filled height (new (some height)).delivered actions := by
  have delivers {actions : List Action} (fixed : ∀ other, .setHeight other ∉ actions) :
      (new (some height)).delivered actions = (new (some height)).laid (addedTexts actions) :=
    delivered_eq fixed _
  have bounded : (new (some height)).height = some height := rfl
  have paged (texts : List (List Char)) :=
    onPages_laid (OnPages.nil height) positive bounded rfl texts
  simp only [List.nil_append] at paged
  refine ⟨?_, ?_, ?_, ?_, ?_⟩
  · obtain ⟨earlier, last, onPages, -⟩ := paged (addedTexts actions)
    exact ⟨earlier, last, delivers fixed ▸ onPages⟩
  · rintro before text after rfl
    have fixedBefore : ∀ other, .setHeight other ∉ before := fun other member =>
      fixed other (List.mem_append_left _ member)
    have texts : addedTexts (before ++ .add text :: after) =
        addedTexts before ++ text :: addedTexts after := List.filterMap_append
    obtain ⟨earlier, last, onPages, used⟩ := paged (addedTexts before)
    let pages := (new (some height)).addAll (addedTexts before)
    have bound : pages.height = some height := height_addAll _ _
    refine ⟨earlier, last, (pages.add text).laid (addedTexts after),
      delivers fixedBefore ▸ onPages, ?_, sublist_laid _ _⟩
    rw [delivers fixed, delivers fixedBefore, texts, laid_append, laid,
      placed_eq onPages bound used, List.append_assoc]
  · rw [delivers fixed]
    exact sublist_laid _ _
  · rw [delivers fixed]
    exact inhabited_laid _ _
  · have added : addedTexts ((addedTexts actions).map .add) = addedTexts actions := by
      rw [addedTexts, List.filterMap_map]
      exact List.filterMap_some
    rw [delivers fixed, delivers (by simp), added]

/-- A skip that finds the first page full is dropped, and one on the second page is not. -/
theorem fills_pages_of_two :
    Filled 2 (new (some 2)).delivered
      [.add ['a'], .take, .add ['b'], .add [], .take, .add ['c'], .add [], .add ['d']] :=
  fills_pages (by decide) (by simp)

end Pages

end Galley
