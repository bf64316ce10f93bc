import Galley.Proofs.FinishedLines
import Galley.Proofs.PagedLines

/-! # Words are kept whatever is set

Words wait on the line being built while any setting may change, and then the line is finished on
one of several occasions. On each of them the words that wait are shown in their order behind the
indentation that is then in force, with blanks between neighbours, and pages keep every line of
text. So no word is lost, shown twice, moved, split or joined to another
(`Galley.Stream.keeps_words`).
-/

namespace Galley

open Composer (Action finishedWords)

/-- A text that consists of words with at least one blank between each and the next. -/
inductive Spaced : (words : List (List Char)) → (text : List Char) → Prop
  | last (word : List Char) : Spaced [word] word
  | cons (word : List Char) {gap : Nat} {rest : List (List Char)} {text : List Char}
      (apart : 0 < gap) (spaced : Spaced rest text) :
      Spaced (word :: rest) (word ++ List.replicate gap ' ' ++ text)

theorem Line.spaced_joinWords {words : List (List Char)} {gaps : List Nat}
    (fitting : gaps.length + 1 = words.length) (apart : ∀ gap ∈ gaps, 0 < gap) :
    Spaced words (joinWords words gaps) := by
  fun_induction joinWords words gaps with
  | case1 => exact absurd fitting (Nat.succ_ne_zero _)
  | case2 word => exact .last word
  | case3 word rest several =>
      exact absurd (List.eq_nil_of_length_eq_zero (Nat.succ.inj fitting).symm) several
  | case4 word rest gap gaps _ ih =>
      obtain ⟨first, later⟩ := List.forall_mem_cons.mp apart
      exact .cons word first (ih (Nat.succ.inj fitting) later)

/-- A justified line shows its words behind the indentation in force. -/
theorem FinishedLine.Justified.exists_spaced {done : FinishedLine} (justified : done.Justified) :
    ∃ text, Spaced done.line.words text ∧ done.line.render =
      List.replicate (done.settings.effectiveIndentation done.opensParagraph) ' ' ++ text :=
  ⟨_, Line.spaced_joinWords justified.wellSet fun gap member => (justified.bounded gap member).1,
    justified.indented ▸ rfl⟩

namespace Composer

/-- The words of the lines that a run finishes, and then those that wait after it. -/
theorem words_finishedLines (composer : Composer) (actions : List Action) :
    (composer.finishedLines actions).flatMap (·.line.words) ++ (composer.run actions).1.words =
      composer.words ++ finishedWords composer.word actions := by
  have words := (composer.delivers_run actions).words
  rwa [← flatMap_words_composedLines, ← composer.line_finishedLines, List.flatMap_map] at words

end Composer

namespace Stream

/-- What a run does with words. The words that are finished lines and then those that wait are the
words that waited before the run and then those that it finished. The lines of text that the run
adds to the pages, with a page mark or without, are the lines that it finished. Each of them shows
its words behind the indentation that was in force. After the end of a paragraph no word waits. -/
structure KeepsWords (stream : Stream) (actions : List Action) : Prop where
  kept : (stream.composer.finishedLines actions).flatMap (·.line.words) ++
      (stream.run actions).composer.words =
    stream.composer.words ++ finishedWords stream.composer.word actions
  shown : ∃ more : List PageLine,
    (stream.run actions).pages.lines = stream.pages.lines ++ more.map PageLine.render ∧
    (more.map PageLine.text).filter (· ≠ []) =
      (stream.composer.finishedLines actions).map (·.line.render)
  spaced : ∀ done ∈ stream.composer.finishedLines actions,
    ∃ text, Spaced done.line.words text ∧ done.line.render =
      List.replicate (done.settings.effectiveIndentation done.opensParagraph) ' ' ++ text
  settled : (stream.run (actions ++ [.endParagraph])).composer.Idle

variable {stream : Stream} {actions : List Action}

/-- **Words are kept** whatever is asked of a stream, if neither the words that wait nor the words
that are added are empty. -/
theorem keeps_words (waiting : [] ∉ stream.composer.words)
    (inhabited : Action.addWord [] ∉ actions) : stream.KeepsWords actions where
  kept := by
    rw [composer_run]
    exact stream.composer.words_finishedLines actions
  shown := by
    obtain ⟨more, held, texts⟩ := stream.exists_held_run actions
    refine ⟨more, ?_, ?_⟩
    · rw [Pages.lines, held, List.map_append, Pages.lines]
    · rw [texts, rowTexts, inhabited_texts (Composer.render_ne_nil_of_run _ waiting inhabited),
        ← Composer.line_finishedLines, List.map_map]
      rfl
  spaced done member := (stream.composer.justified_finishedLines actions done member).exists_spaced
  settled := by
    rw [composer_run]
    exact stream.composer.idle_run actions

/-- Filling stops while two words wait, pages get a height and the indentation grows before the
line is finished. -/
theorem keeps_words_of_changed_settings :
    (new Settings.main).KeepsWords
      [.addText "al".toList, .addText "pha".toList, .finishWord, .addWord "beta".toList,
        .change (.switch .fill false), .change (.measure .textHeight 1),
        .change (.measure .indentation 4), .addWord "gamma".toList, .endLine,
        .addText "delta".toList, .endParagraph] :=
  keeps_words (by decide) (by decide)

end Stream

end Galley
