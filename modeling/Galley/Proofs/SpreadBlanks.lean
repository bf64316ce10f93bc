import Mathlib.Algebra.Order.Round
import Mathlib.Data.List.Infix
import Mathlib.Data.Rat.Floor
import Galley.Layout.Line

/-! # Spreading blanks over gaps

The blanks before a word are a rounded multiple of those of the whole line, so any run of gaps has
its share of them up to rounding: as many as that many gaps need at least, and no more than they can
hold (`Galley.le_blanksBefore_add`, `Galley.blanksBefore_add_le`). For a single gap this bounds its
width (`Galley.le_gap`, `Galley.gap_le`), and all gaps together have the blanks of the line
(`Galley.sum_spreadGaps`). Against the exact share, which need not be whole, the blanks before a
word are the nearest integer and those of a run of gaps its floor or its ceiling
(`Galley.spreads_evenly`).
-/

namespace Galley

variable {index steps bound blanks count gap : Nat}

/-- The blanks before a word further on, over the denominator of those before an earlier word. -/
theorem blanksBefore_add (several : ¬count < 2) : blanksBefore (index + steps) blanks count =
    (2 * index * blanks + (count - 1) + 2 * (steps * blanks)) / (2 * (count - 1)) := by
  rw [blanksBefore, if_neg several, Nat.mul_add, Nat.add_mul, Nat.mul_assoc 2 steps,
    Nat.add_right_comm]

theorem blanksBefore_add_bound (several : ¬count < 2) : blanksBefore index blanks count + bound =
    (2 * index * blanks + (count - 1) + 2 * (bound * (count - 1))) / (2 * (count - 1)) := by
  rw [blanksBefore, if_neg several, ← Nat.add_mul_div_left _ bound (by omega),
    Nat.mul_comm bound, Nat.mul_assoc 2 (count - 1)]

/-- If the share of `steps` gaps is `bound` blanks or more, any `steps` gaps in a row have as
many. -/
theorem le_blanksBefore_add (several : ¬count < 2) (enough : bound * (count - 1) ≤ steps * blanks) :
    blanksBefore index blanks count + bound ≤ blanksBefore (index + steps) blanks count := by
  rw [blanksBefore_add several, blanksBefore_add_bound several]
  exact Nat.div_le_div_right (by omega)

/-- If the share of `steps` gaps is `bound` blanks or fewer, any `steps` gaps in a row have no
more. -/
theorem blanksBefore_add_le (several : ¬count < 2) (few : steps * blanks ≤ bound * (count - 1)) :
    blanksBefore (index + steps) blanks count ≤ blanksBefore index blanks count + bound := by
  rw [blanksBefore_add several, blanksBefore_add_bound several]
  exact Nat.div_le_div_right (by omega)

/-- A gap is the difference between the blanks before its two words, and there are two words. -/
theorem exists_of_mem_spreadGaps (member : gap ∈ spreadGaps blanks count) :
    ¬count < 2 ∧ ∃ index,
      gap = blanksBefore (index + 1) blanks count - blanksBefore index blanks count := by
  obtain ⟨index, among, rfl⟩ := List.mem_map.mp member
  have inside := List.mem_range.mp among
  exact ⟨by omega, index, rfl⟩

/-- If there are `bound` blanks for each gap, every gap gets as many. -/
theorem le_gap (enough : bound * (count - 1) ≤ blanks) (member : gap ∈ spreadGaps blanks count) :
    bound ≤ gap := by
  obtain ⟨several, index, rfl⟩ := exists_of_mem_spreadGaps member
  have share := @le_blanksBefore_add index 1 bound blanks count several (by omega)
  omega

/-- If there are at most `bound` blanks for each gap, no gap gets more. -/
theorem gap_le (few : blanks ≤ bound * (count - 1)) (member : gap ∈ spreadGaps blanks count) :
    gap ≤ bound := by
  obtain ⟨several, index, rfl⟩ := exists_of_mem_spreadGaps member
  have share := @blanksBefore_add_le index 1 bound blanks count several (by omega)
  omega

/-- The steps of an ascending sequence add up to what it grows by. -/
theorem sum_steps {sequence : Nat → Nat}
    (ascends : ∀ index, sequence index ≤ sequence (index + 1)) (steps : Nat) :
    ((List.range steps).map fun index => sequence (index + 1) - sequence index).sum + sequence 0 =
      sequence steps := by
  induction steps with
  | zero => simp
  | succ steps ih =>
      have step := ascends steps
      rw [List.range_succ, List.map_append, List.sum_append, List.map_singleton,
        List.sum_singleton]
      omega

/-- The first gaps of a line have the blanks before the word behind them. -/
theorem sum_take_spreadGaps (inside : index ≤ count - 1) :
    ((spreadGaps blanks count).take index).sum = blanksBefore index blanks count := by
  have grows := @sum_steps (fun index => blanksBefore index blanks count)
    (fun index => blanksBefore_mono (Nat.le_succ index) blanks count) index
  rw [blanksBefore_zero, Nat.add_zero] at grows
  rw [spreadGaps, ← List.map_take, List.take_range, Nat.min_eq_left inside, grows]

/-- The gaps of a line have all its blanks. -/
theorem sum_spreadGaps (several : ¬count < 2) : (spreadGaps blanks count).sum = blanks := by
  have whole := @sum_take_spreadGaps (count - 1) blanks count (Nat.le_refl _)
  rwa [List.take_of_length_le (Nat.le_of_eq (length_spreadGaps blanks count)), blanksBefore_last,
    if_neg several] at whole

/-- A stretch of gaps has the blanks between the words at its ends. -/
theorem exists_of_infix_spreadGaps {stretch : List Nat}
    (within : stretch <:+: spreadGaps blanks count) :
    ∃ index, blanksBefore (index + stretch.length) blanks count =
      blanksBefore index blanks count + stretch.sum := by
  obtain ⟨before, after, whole⟩ := within
  have total := congrArg List.length whole
  simp only [List.length_append, length_spreadGaps] at total
  have first : (spreadGaps blanks count).take before.length = before := by
    rw [← whole, List.append_assoc, List.take_left]
  have both : (spreadGaps blanks count).take (before.length + stretch.length) =
      before ++ stretch := by
    rw [← whole, ← List.length_append, List.take_left]
  refine ⟨before.length, ?_⟩
  rw [← sum_take_spreadGaps (by omega), ← sum_take_spreadGaps (by omega), first, both,
    List.sum_append]

/-! ## Shares that need not be whole -/

/-- The blanks that `steps` gaps of a line of `count` words would have if blanks could be
divided. -/
def gapShare (steps blanks count : Nat) : ℚ :=
  (steps * blanks : Nat) / (count - 1 : Nat)

theorem gapShare_nonneg (steps blanks count : Nat) : 0 ≤ gapShare steps blanks count :=
  div_nonneg (Nat.cast_nonneg _) (Nat.cast_nonneg _)

theorem le_gapShare_iff (several : ¬count < 2) :
    bound ≤ gapShare steps blanks count ↔ bound * (count - 1) ≤ steps * blanks := by
  have positive : (0 : ℚ) < (count - 1 : Nat) := Nat.cast_pos.mpr (by omega)
  rw [gapShare, le_div_iff₀ positive, ← Nat.cast_mul, Nat.cast_le]

theorem gapShare_le_iff (several : ¬count < 2) :
    gapShare steps blanks count ≤ bound ↔ steps * blanks ≤ bound * (count - 1) := by
  have positive : (0 : ℚ) < (count - 1 : Nat) := Nat.cast_pos.mpr (by omega)
  rw [gapShare, div_le_iff₀ positive, ← Nat.cast_mul, Nat.cast_le]

/-- Gaps in a row have their share of the blanks of the line, rounded down or up. -/
theorem blanksBefore_add_sub (several : ¬count < 2) :
    (blanksBefore (index + steps) blanks count : ℤ) - blanksBefore index blanks count =
        ⌊gapShare steps blanks count⌋ ∨
      (blanksBefore (index + steps) blanks count : ℤ) - blanksBefore index blanks count =
        ⌈gapShare steps blanks count⌉ := by
  have nonneg := gapShare_nonneg steps blanks count
  have least : blanksBefore index blanks count + ⌊gapShare steps blanks count⌋₊ ≤
      blanksBefore (index + steps) blanks count :=
    le_blanksBefore_add several ((le_gapShare_iff several).mp (Nat.floor_le nonneg))
  have most : blanksBefore (index + steps) blanks count ≤
      blanksBefore index blanks count + ⌈gapShare steps blanks count⌉₊ :=
    blanksBefore_add_le several ((gapShare_le_iff several).mp (Nat.le_ceil _))
  have near := Nat.ceil_le_floor_add_one (gapShare steps blanks count)
  rw [← Int.natCast_floor_eq_floor nonneg, ← Int.natCast_ceil_eq_ceil nonneg]
  omega

/-- The blanks before a word are the share of the gaps before it, rounded to the nearest integer
with a half going up. -/
theorem blanksBefore_eq_round (several : ¬count < 2) :
    blanksBefore index blanks count = round (gapShare index blanks count) := by
  have nonzero : ((count - 1 : Nat) : ℚ) ≠ 0 := Nat.cast_ne_zero.mpr (by omega)
  have raised : gapShare index blanks count + 1 / 2 =
      (2 * index * blanks + (count - 1) : Nat) / (2 * (count - 1) : Nat) := by
    rw [gapShare]
    push_cast
    field_simp
  rw [round_eq, raised, Rat.floor_natCast_div_natCast, blanksBefore, if_neg several]
  rfl

/-- A stretch of gaps has as many blanks as its number of gaps has for its share, rounded down or
up. -/
theorem sum_of_infix_spreadGaps {stretch : List Nat} (several : ¬count < 2)
    (within : stretch <:+: spreadGaps blanks count) :
    (stretch.sum : ℤ) = ⌊gapShare stretch.length blanks count⌋ ∨
      (stretch.sum : ℤ) = ⌈gapShare stretch.length blanks count⌉ := by
  obtain ⟨index, ends⟩ := exists_of_infix_spreadGaps within
  have share := @blanksBefore_add_sub index stretch.length blanks count several
  rwa [ends, Nat.cast_add, add_sub_cancel_left] at share

/-- Stretches of equally many gaps differ by at most one blank. -/
theorem sum_le_succ_of_infix {one other : List Nat} (several : ¬count < 2)
    (within : one <:+: spreadGaps blanks count) (withinOther : other <:+: spreadGaps blanks count)
    (equal : one.length = other.length) : one.sum ≤ other.sum + 1 := by
  have share := sum_of_infix_spreadGaps several within
  have shareOther := sum_of_infix_spreadGaps several withinOther
  rw [equal] at share
  have near := Int.ceil_le_floor_add_one (gapShare other.length blanks count)
  have ordered := Int.floor_le_ceil (gapShare other.length blanks count)
  omega

/-- Gaps of a line differ by at most one blank. -/
theorem gap_le_succ {other : Nat} (member : gap ∈ spreadGaps blanks count)
    (memberOther : other ∈ spreadGaps blanks count) : gap ≤ other + 1 := by
  have several := (exists_of_mem_spreadGaps member).1
  have near := sum_le_succ_of_infix several ((List.singleton_infix_iff gap _).mpr member)
    ((List.singleton_infix_iff other _).mpr memberOther) rfl
  rwa [List.sum_singleton, List.sum_singleton] at near

/-- How blanks are spread over the gaps of a line of `count` words: each run of gaps, from the word
`first` to the word `last`, has its exact share of them rounded down or up, and what stands before a
word is rounded to the nearest integer, a half going up. -/
structure SpreadEvenly (blanks count : Nat) : Prop where
  run : ∀ first last, first ≤ last → last ≤ count - 1 →
    (blanksBefore last blanks count : ℤ) - blanksBefore first blanks count =
        ⌊gapShare (last - first) blanks count⌋ ∨
      (blanksBefore last blanks count : ℤ) - blanksBefore first blanks count =
        ⌈gapShare (last - first) blanks count⌉
  nearest : ∀ index, index ≤ count - 1 →
    blanksBefore index blanks count = round (gapShare index blanks count)
  ascending : ∀ first last, first ≤ last → last ≤ count - 1 →
    blanksBefore first blanks count ≤ blanksBefore last blanks count
  none_first : blanksBefore 0 blanks count = 0
  all_last : blanksBefore (count - 1) blanks count = blanks
  gap : ∀ gap ∈ spreadGaps blanks count,
    (gap : ℤ) = ⌊gapShare 1 blanks count⌋ ∨ (gap : ℤ) = ⌈gapShare 1 blanks count⌉
  alike : ∀ one other, one <:+: spreadGaps blanks count → other <:+: spreadGaps blanks count →
    one.length = other.length → one.sum ≤ other.sum + 1

/-- **Blanks are spread as evenly as integers allow** over any run of gaps of a line of several
words. -/
theorem spreads_evenly (several : 2 ≤ count) : SpreadEvenly blanks count := by
  have proper : ¬count < 2 := Nat.not_lt.mpr several
  constructor
  case run =>
    intro first last le _
    obtain ⟨steps, rfl⟩ := Nat.exists_eq_add_of_le le
    rw [Nat.add_sub_cancel_left]
    exact blanksBefore_add_sub proper
  case nearest =>
    intro index _
    exact blanksBefore_eq_round proper
  case ascending =>
    intro first last le _
    exact blanksBefore_mono le blanks count
  case none_first => exact blanksBefore_zero blanks count
  case all_last => rw [blanksBefore_last, if_neg proper]
  case gap =>
    intro gap member
    have share := sum_of_infix_spreadGaps proper ((List.singleton_infix_iff gap _).mpr member)
    rwa [List.sum_singleton, List.length_singleton] at share
  case alike =>
    intro one other within withinOther equal
    exact sum_le_succ_of_infix proper within withinOther equal

/-- Eighteen blanks on eleven words leave two gaps with one blank, the third and the eighth. -/
theorem spreads_evenly_over_ten_gaps :
    2 ≤ 11 ∧ SpreadEvenly 18 11 ∧ spreadGaps 18 11 = [2, 2, 1, 2, 2, 2, 2, 1, 2, 2] :=
  ⟨by decide, spreads_evenly (by decide), by decide⟩

end Galley
