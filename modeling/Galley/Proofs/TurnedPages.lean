import Mathlib.Data.List.Infix
import Mathlib.Data.List.Induction
import Galley.Proofs.FilledPages

/-! # Pages whose height changes

The height of pages may be changed at any time, also to less than the current page already holds.
Text that arrives at a page with no room opens the next page. A skipped line is dropped only by a
page that is exactly full, so a page that holds more lines than its height still takes skipped
lines. Apart from those, no page holds more lines than the largest height that was in force while it
was the current page. Main statement: `Galley.Pages.turns_pages`.
-/

namespace Galley

/-! ## The page at the end -/

/-- The page at the end of lines, which starts with the last of them that opens a page. -/
def lastPage (lines : List PageLine) : List PageLine :=
  lines.foldl (fun page line => if line.opensPage then [line] else page ++ [line]) []

@[simp] theorem lastPage_concat (lines : List PageLine) (line : PageLine) :
    lastPage (lines ++ [line]) = if line.opensPage then [line] else lastPage lines ++ [line] := by
  rw [lastPage, List.foldl_append]
  rfl

/-- How often lines go on to another page. -/
def turns (lines : List PageLine) : Nat :=
  lines.countP PageLine.opensPage

theorem turns_append (first second : List PageLine) :
    turns (first ++ second) = turns first + turns second :=
  List.countP_append

namespace Pages

variable {start : Option Nat} {actions : List Action}

/-! ## One action more -/

/-- What is delivered by one action more: the line that it places, if it adds one. -/
theorem delivered_concat (pages : Pages) (actions : List Action) (action : Action) :
    pages.delivered (actions ++ [action]) = pages.delivered actions ++
      match action with
      | .add text => (pages.run actions).1.placed text
      | .setHeight _ | .take => [] := by
  rw [delivered, run_append, delivered]
  cases action with
  | add text =>
      have held := (pages.run actions).1.held_add text
      simp only [run, perform, List.append_nil, List.append_assoc, held]
  | setHeight height => simp [run, perform, setHeight]
  | take => simp [run, perform, take]

theorem delivered_add (pages : Pages) (actions : List Action) (text : List Char) :
    pages.delivered (actions ++ [.add text]) =
      pages.delivered actions ++ (pages.run actions).1.placed text :=
  pages.delivered_concat actions (.add text)

theorem delivered_of_quiet (pages : Pages) (actions : List Action) {action : Action}
    (quiet : ∀ text, action ≠ .add text) :
    pages.delivered (actions ++ [action]) = pages.delivered actions := by
  rw [delivered_concat]
  cases action with
  | add text => exact absurd rfl (quiet text)
  | setHeight height => exact List.append_nil _
  | take => exact List.append_nil _

/-- The height that is in force after actions. -/
def heightAfter (pages : Pages) (actions : List Action) : Option Nat :=
  (pages.run actions).1.height

theorem heightAfter_add (pages : Pages) (actions : List Action) (text : List Char) :
    pages.heightAfter (actions ++ [.add text]) = pages.heightAfter actions := by
  rw [heightAfter, run_append]
  exact height_add _ text

/-- A page that has used as many lines as the page at the end has does so after each line. -/
theorem used_add {pages : Pages} {lines : List PageLine}
    (used : pages.used = (lastPage lines).length) (text : List Char) :
    (pages.add text).used = (lastPage (lines ++ pages.placed text)).length := by
  rw [add, placed]
  by_cases empty : text = []
  · by_cases full : pages.height = some pages.used
    · rw [if_pos empty, if_pos empty, if_pos full, if_pos full, List.append_nil, used]
    · rw [if_pos empty, if_pos empty, if_neg full, if_neg full, lastPage_concat]
      simp [used]
  · rw [if_neg empty, if_neg empty, lastPage_concat]
    cases room : pages.hasRoom with
    | false => rfl
    | true => simp [used]

/-- The lines that a page has used are those of the page at the end of what is delivered. -/
theorem used_run (start : Option Nat) (actions : List Action) :
    ((new start).run actions).1.used = (lastPage ((new start).delivered actions)).length := by
  induction actions using List.reverseRecOn with
  | nil => rfl
  | append_singleton actions action ih =>
      rw [run_append, delivered_concat]
      cases action with
      | add text => exact used_add ih text
      | setHeight height => rwa [List.append_nil]
      | take => rwa [List.append_nil]

/-- A line more has room on the page at the end. -/
def Room (pages : Pages) (actions : List Action) : Prop :=
  (pages.heightAfter actions).all ((lastPage (pages.delivered actions)).length < ·)

theorem hasRoom_iff :
    ((new start).run actions).1.hasRoom = true ↔ (new start).Room actions := by
  rw [hasRoom, used_run, Room, heightAfter]

theorem room_or_full (pages : Pages) (actions : List Action) :
    pages.Room actions ∨ ∃ height, pages.heightAfter actions = some height ∧
      height ≤ (lastPage (pages.delivered actions)).length := by
  unfold Room
  cases pages.heightAfter actions with
  | none => exact Or.inl rfl
  | some height =>
      obtain less | full := Nat.lt_or_ge (lastPage (pages.delivered actions)).length height
      · exact Or.inl (decide_eq_true less)
      · exact Or.inr ⟨height, rfl, full⟩

theorem not_room {pages : Pages} {height : Nat} (inForce : pages.heightAfter actions = some height)
    (full : height ≤ (lastPage (pages.delivered actions)).length) : ¬pages.Room actions := by
  rw [Room, inForce, Option.all_some, decide_eq_true_eq]
  exact Nat.not_lt.mpr full

/-! ## Where a line arrives -/

/-- Text that finds the page at the end without room opens the next page. -/
theorem delivered_of_full {text : List Char} (inhabited : text ≠ []) {height : Nat}
    (inForce : (new start).heightAfter actions = some height)
    (full : height ≤ (lastPage ((new start).delivered actions)).length) :
    (new start).delivered (actions ++ [.add text]) =
      (new start).delivered actions ++ [⟨true, text⟩] := by
  have noRoom := Bool.eq_false_iff.mpr (mt hasRoom_iff.mp (not_room inForce full))
  rw [delivered_add, placed, if_neg inhabited, noRoom, Bool.not_false]

/-- A line that has room, be it text or a skip, is put on the page at the end. -/
theorem delivered_of_room (text : List Char) (room : (new start).Room actions) :
    (new start).delivered (actions ++ [.add text]) =
      (new start).delivered actions ++ [⟨false, text⟩] := by
  have hasRoom := hasRoom_iff.mpr room
  rw [delivered_add, placed]
  by_cases empty : text = []
  · have other : ((new start).run actions).1.height ≠ some ((new start).run actions).1.used := by
      intro full
      rw [used_run] at full
      exact not_room full (Nat.le_refl _) room
    rw [if_pos empty, if_neg other, empty]
  · rw [if_neg empty, hasRoom, Bool.not_true]

/-- A skip is dropped by a page that is exactly full. -/
theorem delivered_of_skip
    (full : (new start).heightAfter actions =
      some (lastPage ((new start).delivered actions)).length) :
    (new start).delivered (actions ++ [.add []]) = (new start).delivered actions := by
  rw [heightAfter, ← used_run] at full
  rw [delivered_add, placed, if_pos rfl, if_pos full, List.append_nil]

/-- A skip stays on a page that has more lines than its height. -/
theorem delivered_of_skip_beyond {height : Nat}
    (inForce : (new start).heightAfter actions = some height)
    (beyond : height < (lastPage ((new start).delivered actions)).length) :
    (new start).delivered (actions ++ [.add []]) =
      (new start).delivered actions ++ [⟨false, []⟩] := by
  have other : ((new start).run actions).1.height ≠ some ((new start).run actions).1.used := by
    intro full
    have same := inForce.symm.trans full
    rw [used_run, Option.some_inj] at same
    omega
  rw [delivered_add, placed, if_pos rfl, if_neg other]

/-! ## What was in force while a page was filled -/

/-- The height was in force at some time since the page at the end was opened. -/
def InForce (pages : Pages) (actions : List Action) (height : Option Nat) : Prop :=
  ∃ part, part <+: actions ∧ turns (pages.delivered part) = turns (pages.delivered actions) ∧
    pages.heightAfter part = height

/-- A skip arrived when the page at the end was `front` and already had more lines than the height
in force. -/
def SkipsBeyond (pages : Pages) (actions : List Action) (front : List PageLine) : Prop :=
  ∃ part height, part ++ [.add []] <+: actions ∧
    turns (pages.delivered part) = turns (pages.delivered actions) ∧
    lastPage (pages.delivered part) = front ∧
    pages.heightAfter part = some height ∧ height < front.length

/-- Each line of the page at the end had room under some height that was in force since that page
was opened, or it is a skip that arrived when the page was beyond its height. -/
def Bounded (pages : Pages) (actions : List Action) : Prop :=
  ∀ front line rest, lastPage (pages.delivered actions) = front ++ line :: rest →
    (∃ height, pages.InForce actions height ∧ height.all (front.length < ·)) ∨
      line = ⟨false, []⟩ ∧ pages.SkipsBeyond actions front

theorem inForce_self (pages : Pages) (actions : List Action) :
    pages.InForce actions (pages.heightAfter actions) :=
  ⟨actions, List.prefix_refl actions, rfl, rfl⟩

/-- What was in force stays so as long as the page is not turned. -/
theorem InForce.concat {pages : Pages} {action : Action} {height : Option Nat}
    (inForce : pages.InForce actions height)
    (same : turns (pages.delivered (actions ++ [action])) = turns (pages.delivered actions)) :
    pages.InForce (actions ++ [action]) height := by
  obtain ⟨part, before, page, eq⟩ := inForce
  exact ⟨part, before.trans (List.prefix_append _ _), page.trans same.symm, eq⟩

theorem SkipsBeyond.concat {pages : Pages} {action : Action} {front : List PageLine}
    (skips : pages.SkipsBeyond actions front)
    (same : turns (pages.delivered (actions ++ [action])) = turns (pages.delivered actions)) :
    pages.SkipsBeyond (actions ++ [action]) front := by
  obtain ⟨part, height, before, page, eq, bound, beyond⟩ := skips
  exact ⟨part, height, before.trans (List.prefix_append _ _), page.trans same.symm, eq, bound,
    beyond⟩

/-- An action that delivers nothing leaves the page at the end as it is. -/
theorem Bounded.silent {pages : Pages} {action : Action} (bounded : pages.Bounded actions)
    (silent : pages.delivered (actions ++ [action]) = pages.delivered actions) :
    pages.Bounded (actions ++ [action]) := by
  have same := congrArg turns silent
  intro front line rest split
  rw [silent] at split
  obtain ⟨height, inForce, fits⟩ | ⟨skip, skips⟩ := bounded front line rest split
  · exact Or.inl ⟨height, inForce.concat same, fits⟩
  · exact Or.inr ⟨skip, skips.concat same⟩

/-- A line more on the page at the end: only that line is new. -/
theorem Bounded.fill {pages : Pages} {text : List Char} (bounded : pages.Bounded actions)
    (filled : pages.delivered (actions ++ [.add text]) =
      pages.delivered actions ++ [⟨false, text⟩])
    (new : pages.Room actions ∨ text = [] ∧ ∃ height, pages.heightAfter actions = some height ∧
        height < (lastPage (pages.delivered actions)).length) :
    pages.Bounded (actions ++ [.add text]) := by
  have same : turns (pages.delivered (actions ++ [.add text])) =
      turns (pages.delivered actions) := by
    rw [filled, turns_append]
    rfl
  intro front line rest split
  rw [filled, lastPage_concat] at split
  -- Only the last line of the page is new, and what is known of the others stays true.
  cases rest using List.reverseRecOn with
  | nil =>
      obtain ⟨page, last⟩ := List.append_inj' split rfl
      cases last
      change lastPage (pages.delivered actions) = front at page
      rw [Room, page] at new
      obtain room | ⟨rfl, height, bound, beyond⟩ := new
      · exact Or.inl ⟨_, (pages.inForce_self actions).concat same, room⟩
      · exact Or.inr ⟨rfl, actions, height, List.prefix_refl _, same.symm, page, bound, beyond⟩
  | append_singleton rest last =>
      have page : lastPage (pages.delivered actions) = front ++ line :: rest := by
        rw [← List.cons_append, ← List.append_assoc] at split
        exact (List.append_inj' split rfl).1
      obtain ⟨height, inForce, fits⟩ | ⟨skip, skips⟩ := bounded front line rest page
      · exact Or.inl ⟨height, inForce.concat same, fits⟩
      · exact Or.inr ⟨skip, skips.concat same⟩

/-- A page that is opened has room for its first line. -/
theorem bounded_of_turn {pages : Pages} {text : List Char}
    (turned : pages.delivered (actions ++ [.add text]) = pages.delivered actions ++ [⟨true, text⟩])
    (positive : (pages.heightAfter actions).all (0 < ·)) :
    pages.Bounded (actions ++ [.add text]) := by
  intro front line rest split
  rw [turned, lastPage_concat] at split
  obtain ⟨rfl, -⟩ | ⟨rest, rfl, tail⟩ := List.cons_eq_append_iff.mp split
  · refine Or.inl ⟨_, pages.inForce_self _, ?_⟩
    rw [heightAfter_add]
    exact positive
  · exact absurd tail (by simp)

/-! ## All actions -/

/-- The heights that are set are positive, and the one to start with is. -/
def PositiveHeights (start : Option Nat) (actions : List Action) : Prop :=
  start.all (0 < ·) ∧ ∀ height, .setHeight height ∈ actions → 0 < height

theorem PositiveHeights.before {action : Action}
    (positive : PositiveHeights start (actions ++ [action])) : PositiveHeights start actions :=
  ⟨positive.1, fun height member => positive.2 height (List.mem_append_left _ member)⟩

theorem PositiveHeights.heightAfter (positive : PositiveHeights start actions) :
    ((new start).heightAfter actions).all (0 < ·) := by
  induction actions using List.reverseRecOn with
  | nil => exact positive.1
  | append_singleton actions action ih =>
      rw [Pages.heightAfter, run_append]
      cases action with
      | add text =>
          change Option.all _ (Pages.height (Pages.add _ text))
          rw [height_add]
          exact ih positive.before
      | setHeight height => exact decide_eq_true (positive.2 height (by simp))
      | take => exact ih positive.before

/-- The page at the end stays bounded when a line is added: the line has room, is dropped or is
beyond the height as a skip, or opens the next page. -/
theorem Bounded.add (bounded : (new start).Bounded actions)
    (positive : PositiveHeights start actions) (text : List Char) :
    (new start).Bounded (actions ++ [.add text]) := by
  obtain room | ⟨height, inForce, full⟩ := (new start).room_or_full actions
  · exact bounded.fill (delivered_of_room text room) (Or.inl room)
  by_cases empty : text = []
  · subst empty
    obtain same | beyond := Nat.eq_or_lt_of_le full
    · exact bounded.silent (delivered_of_skip (same ▸ inForce))
    · exact bounded.fill (delivered_of_skip_beyond inForce beyond)
        (Or.inr ⟨rfl, height, inForce, beyond⟩)
  · exact bounded_of_turn (delivered_of_full empty inForce full) positive.heightAfter

/-- **The bound.** The page at the end is bounded after any actions. -/
theorem bounded_run (positive : PositiveHeights start actions) :
    (new start).Bounded actions := by
  induction actions using List.reverseRecOn with
  | nil => exact fun front line rest split => nomatch List.append_eq_nil_iff.mp split.symm
  | append_singleton actions action ih =>
      have bounded := ih positive.before
      cases action with
      | add text => exact bounded.add positive.before text
      | setHeight height => exact bounded.silent (delivered_of_quiet _ _ nofun)
      | take => exact bounded.silent (delivered_of_quiet _ _ nofun)

theorem not_opensPage_of_room {pages : Pages} (room : pages.hasRoom = true)
    (text : List Char) : ∀ line ∈ pages.placed text, line.opensPage = false := by
  rw [placed, room]
  by_cases empty : text = []
  · by_cases full : pages.height = some pages.used <;> simp [empty, full]
  · simp [empty]

/-- The first line on pages of positive heights opens no page. -/
theorem not_opensPage_of_first (positive : PositiveHeights start actions) {line : PageLine}
    (first : ((new start).delivered actions).head? = some line) : line.opensPage = false := by
  induction actions using List.reverseRecOn with
  | nil => simp [delivered, run, new] at first
  | append_singleton actions action ih =>
      cases action with
      | add text =>
          rw [delivered_add] at first
          cases earlier : (new start).delivered actions with
          | cons other rest =>
              rw [earlier] at first
              exact ih positive.before (earlier ▸ first)
          | nil =>
              -- The page at the end is empty, and its height is positive.
              have room : (new start).Room actions := by
                rw [Room, earlier]
                exact positive.before.heightAfter
              rw [earlier, List.nil_append] at first
              exact not_opensPage_of_room (hasRoom_iff.mpr room) text line
                (List.mem_of_mem_head? first)
      | setHeight height =>
          rw [(new start).delivered_of_quiet actions (by simp)] at first
          exact ih positive.before first
      | take =>
          rw [(new start).delivered_of_quiet actions (by simp)] at first
          exact ih positive.before first

/-- What happens to a line that is added after actions, and what they leave on the page at the end.
Text that finds the page full opens the next page behind a page mark. A skip is dropped by a page
that is exactly full and stays on one that is beyond its height. Any line that has room is put on
the page. On the page at the end, no line of text is beyond all heights that were in force while it
was filled, and it has more lines than each of these only if a skip arrived at it when it was beyond
its height. -/
structure Turns (pages : Pages) (actions : List Action) : Prop where
  text_turns : ∀ text height, text ≠ [] → pages.heightAfter actions = some height →
    height ≤ (lastPage (pages.delivered actions)).length →
    ∃ line : PageLine, line.render = pageBreak :: text ∧
      pages.delivered (actions ++ [.add text]) = pages.delivered actions ++ [line] ∧
      lastPage (pages.delivered (actions ++ [.add text])) = [line]
  skip_dropped :
    pages.heightAfter actions = some (lastPage (pages.delivered actions)).length →
    pages.delivered (actions ++ [.add []]) = pages.delivered actions
  skip_stays : ∀ height, pages.heightAfter actions = some height →
    height < (lastPage (pages.delivered actions)).length →
    pages.delivered (actions ++ [.add []]) = pages.delivered actions ++ [⟨false, []⟩]
  line_fits : ∀ text, pages.Room actions →
    pages.delivered (actions ++ [.add text]) = pages.delivered actions ++ [⟨false, text⟩]
  bounded : pages.Bounded actions
  length_le : ∀ bound, (∀ height, pages.InForce actions height → height.any (· ≤ bound)) →
    (∀ front, ¬pages.SkipsBeyond actions front) →
    (lastPage (pages.delivered actions)).length ≤ bound

/-- **Pages are turned when they are full**, whatever heights are set and when. -/
theorem turns_pages (positive : PositiveHeights start actions) : (new start).Turns actions where
  text_turns text height inhabited inForce full := by
    have turned := delivered_of_full inhabited inForce full
    refine ⟨⟨true, text⟩, rfl, turned, ?_⟩
    rw [turned, lastPage_concat]
    rfl
  skip_dropped full := delivered_of_skip full
  skip_stays height inForce beyond := delivered_of_skip_beyond inForce beyond
  line_fits text room := delivered_of_room text room
  bounded := bounded_run positive
  length_le bound inForce calm := by
    -- The last line of the page has all others before it.
    cases page : lastPage ((new start).delivered actions) using List.reverseRecOn with
    | nil => exact Nat.zero_le bound
    | append_singleton front last =>
        obtain ⟨height, early, fits⟩ | ⟨-, skips⟩ := bounded_run positive front last [] page
        · have low := inForce height early
          cases height with
          | none => simp at low
          | some height =>
              simp only [Option.all_some, Option.any_some, decide_eq_true_eq] at fits low
              rw [List.length_append, List.length_singleton]
              omega
        · exact absurd skips (calm front)

/-- Three lines, a height of two and then a skip and a line of text. -/
theorem turns_pages_of_lowered :
    (new (some 5)).Turns [.add ['a'], .add ['b'], .take, .add ['c'], .setHeight 2, .add [],
      .add ['d']] :=
  turns_pages ⟨rfl, by simp⟩

/-- A page of height five that holds three lines is set to height two. It holds more lines than that
and still takes each of three skips, so it has six lines in the end. -/
theorem skips_pass_lowered_height :
    let lowered : List Action := [.add ['a'], .add ['b'], .add ['c'], .setHeight 2]
    let skipped := lowered ++ [.add [], .add [], .add []]
    PositiveHeights (some 5) skipped ∧
      (new (some 5)).heightAfter lowered = some 2 ∧
      (lastPage ((new (some 5)).delivered lowered)).length = 3 ∧
      (new (some 5)).delivered (lowered ++ [.add []]) ≠ (new (some 5)).delivered lowered ∧
      (∀ height, (new (some 5)).InForce skipped height → height.any (· ≤ 5)) ∧
      (lastPage ((new (some 5)).delivered skipped)).length = 6 := by
  refine ⟨⟨rfl, by simp⟩, rfl, rfl, by decide, ?_, rfl⟩
  intro height inForce
  obtain ⟨part, before, -, rfl⟩ := inForce
  have low : ∀ part ∈ List.inits [.add ['a'], .add ['b'], .add ['c'], .setHeight 2, .add [],
      .add [], .add []], ((new (some 5)).heightAfter part).any (· ≤ 5) := by
    decide
  exact low part ((List.mem_inits part _).mpr before)

end Pages

end Galley
