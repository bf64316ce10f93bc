import Mathlib.Order.Bounds.Basic
import Galley.Proofs.GreedyFilling

/-! # Filling takes the fewest lines

A paragraph can be cut into lines in many ways such that each line fits or is a single word. A
greedy cut is never behind another one: after as many lines it has used at least as many words, also
if the first line is indented differently. So a composer that fills sets a paragraph in the fewest
lines possible (`Galley.Stream.fills_fewest_lines`).
-/

namespace Galley

namespace GreedyCut

variable {settings : Settings} {opens : Bool} {words : List (List Char)}
  {groups : List (List (List Char))}

/-- **A greedy cut stays ahead.** Words that are cut greedily take no more lines than another cut
takes for them, even if that cut first has other words to set. -/
theorem length_le {others : List (List (List Char))} {behind : List (List Char)}
    (cut : GreedyCut settings opens words groups)
    (other : FittingCut settings opens (behind ++ words) others) :
    groups.length ≤ others.length := by
  induction groups generalizing opens words behind others with
  | nil => exact Nat.zero_le _
  | cons group groups ih =>
      have inhabited : words ≠ [] := mt cut.fitting.eq_nil_iff.mp (List.cons_ne_nil _ _)
      have waiting := List.append_ne_nil_of_right_ne_nil behind inhabited
      obtain ⟨line, lines, rfl⟩ := List.exists_cons_of_ne_nil (mt other.eq_nil_iff.mpr waiting)
      have split : line ++ lines.flatten = behind ++ group ++ groups.flatten := by
        rw [List.append_assoc, ← List.flatten_cons, ← List.flatten_cons, cut.flatten, other.flatten]
      -- The words of the other cut's first line do not reach beyond the greedy cut's first line.
      have late : ∃ left, lines.flatten = left ++ groups.flatten := by
        rcases List.append_eq_append_iff.mp split with ⟨left, _, rest⟩ | ⟨ahead, longer, rest⟩
        · exact ⟨left, rest⟩
        · cases ahead with
          | nil => exact ⟨[], by simpa using rest.symm⟩
          | cons word ahead =>
              refine absurd ?_ (cut.not_overtaken rest (other.fits 0 line rfl))
              rw [longer, List.append_assoc]
              exact ((List.singleton_sublist.mpr List.mem_cons_self).append_left group).trans
                (List.sublist_append_right behind _)
      obtain ⟨left, rest⟩ := late
      exact Nat.succ_le_succ (ih cut.tail (rest ▸ other.tail))

/-- No cut in which each line fits or is a single word has fewer lines than a greedy cut. -/
theorem isLeast_length (cut : GreedyCut settings opens words groups) :
    IsLeast {count | ∃ others, FittingCut settings opens words others ∧ others.length = count}
      groups.length := by
  refine ⟨⟨groups, cut.fitting, rfl⟩, ?_⟩
  rintro count ⟨others, other, rfl⟩
  exact @length_le settings opens words groups others [] cut other

end GreedyCut

/-- **Filling takes the fewest lines.** A stream that fills, holds no word and is about to start a
paragraph adds to its pages, for the words of the paragraph, as many lines of text as the shortest
cut has in which each line is a single word or fits behind its indentation. -/
theorem Stream.fills_fewest_lines {stream : Stream} {words : List (List Char)}
    (fill : stream.settings.fill = true) (whole : stream.composer.word = [])
    (empty : stream.composer.words = []) (opens : stream.composer.opensParagraph = true)
    (shown : ∀ word ∈ words, word ≠ []) :
    ∃ lines : List Line,
      (stream.composer.run (Composer.paragraph words)).2 = stream.composer.paragraphRows lines ∧
      (stream.run (Composer.paragraph words)).pages.textLines =
        stream.pages.textLines ++ lines.map Line.render ∧
      IsLeast {count | ∃ groups, FittingCut stream.settings true words groups ∧
        groups.length = count} lines.length := by
  obtain ⟨lines, rows, greedy⟩ :=
    stream.composer.greedyLines_run words fill whole (Or.inl (by simp [empty]))
  rw [empty, List.nil_append, opens] at greedy
  have inhabited : Composer.Action.addWord [] ∉ Composer.paragraph words := by
    simpa [Composer.paragraph] using fun empty : [] ∈ words => shown [] empty rfl
  have visible := stream.composer.render_ne_nil_of_run (by simp [empty]) inhabited
  rw [rows, Composer.composedLines_paragraphRows] at visible
  refine ⟨lines, rows, ?_, ?_⟩
  · rw [Stream.textLines_run, Stream.rowTexts, rows, Composer.paragraphRows_texts visible]
  · rw [← List.length_map Line.words]
    exact greedy.cut.isLeast_length

/-- The indentation of its first line leaves no room for two words there, and one word fits on no
line. Four lines are needed. -/
theorem Stream.fills_fewest_lines_of_narrow_opening :
    let stream := Stream.new { Settings.main with textWidth := 7 }
    let words := ["ten", "of", "them", "overwhelming", "it"].map String.toList
    (stream.run (Composer.paragraph words)).pages.textLines.length = 4 ∧
      IsLeast {count | ∃ groups, FittingCut stream.settings true words groups ∧
        groups.length = count} 4 := by
  intro stream words
  obtain ⟨lines, rows, texts, least⟩ :=
    @Stream.fills_fewest_lines stream words rfl rfl rfl rfl (by decide)
  have counted : (stream.run (Composer.paragraph words)).pages.textLines.length = 4 := by decide
  refine ⟨counted, ?_⟩
  have same : lines.length = 4 := by
    rw [← counted, texts, List.length_append, List.length_map]
    exact (Nat.zero_add _).symm
  rwa [same] at least

end Galley
