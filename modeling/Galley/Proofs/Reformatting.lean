import Galley.Proofs.PrintedLines
import Galley.Proofs.WrittenBytes

/-! # Formatting plain text twice

On pages without bound and with empty lines between paragraphs, what plain text is formatted in is
plain text again, and its outline are the words on its lines. So it is formatted in the same lines
once more (`Galley.writes_again`).
-/

namespace Galley

open Composer (between)

/-! ## What is printed is plain -/

theorem Line.mem_render {line : Line} {char : Char} (member : char ∈ line.render) :
    char = ' ' ∨ ∃ word ∈ line.words, char ∈ word := by
  by_cases blank : char = ' '
  · exact Or.inl blank
  · rcases List.mem_append.mp member with margin | joined
    · exact Or.inl (List.eq_of_mem_replicate margin)
    · have shown : char ∈ (joinWords line.words line.gaps).filter (· ≠ ' ') :=
        List.mem_filter.mpr ⟨joined, by simpa using blank⟩
      rw [filter_joinWords (by simp)] at shown
      exact Or.inr (List.mem_flatten.mp (List.mem_filter.mp shown).1)

theorem mem_setRows {settings : Settings} {untouched : Bool} {sets : List (List Line)} {line : Line}
    (member : Row.line line ∈ setRows settings untouched sets) : ∃ set ∈ sets, line ∈ set := by
  induction sets generalizing untouched with
  | nil => simp [setRows] at member
  | cons set sets ih =>
      rw [setRows] at member
      rcases List.mem_append.mp member with first | later
      · rcases List.mem_append.mp first with skipped | among
        · exact absurd skipped (Composer.not_mem_skips _ _)
        · obtain ⟨_, among, same⟩ := List.mem_map.mp among
          cases same
          exact ⟨set, List.mem_cons_self, among⟩
      · obtain ⟨other, listed, among⟩ := ih later
        exact ⟨other, List.mem_cons_of_mem _ listed, among⟩

theorem plainSource_printed {settings : Settings} {untouched : Bool} {sets : List (List Line)}
    (legible : LegibleSets sets) :
    PlainSource (printed ((setRows settings untouched sets).map Row.text)) := by
  have shown : ∀ char ∈ printed ((setRows settings untouched sets).map Row.text),
      char = '\n' ∨ char = ' ' ∨ isSpecial char = false := by
    intro char member
    obtain ⟨text, listed, found⟩ := List.mem_flatMap.mp member
    obtain ⟨row, among, rfl⟩ := List.mem_map.mp listed
    rcases List.mem_append.mp found with spelled | feed
    · cases row with
      | skip => simp [Row.text] at spelled
      | line line =>
          obtain ⟨set, held, holds⟩ := mem_setRows among
          rcases Line.mem_render spelled with blank | ⟨word, on, char⟩
          · exact Or.inr (Or.inl blank)
          · exact Or.inr (Or.inr ((((legible set held).2 line holds).words word on).2 _ char))
    · exact Or.inl (List.mem_singleton.mp feed)
  have other (char : Char) (special : isSpecial char = true) (feed : char ≠ '\n')
      (blank : char ≠ ' ') : char ∉ printed ((setRows settings untouched sets).map Row.text) := by
    intro member
    rcases shown char member with same | same | ordinary
    · exact feed same
    · exact blank same
    · simp [special] at ordinary
  apply PlainSource.of_no_returns
  · intro char member
    refine ⟨?_, ?_, ?_⟩ <;> rintro rfl <;>
      exact other _ rfl (by decide) (by decide) member
  · exact other '\r' rfl (by decide) (by decide)

/-! ## Lines -/

/-- Plain text is formatted in the same lines again when its lines are printed. -/
theorem format_printed {presets : Presets} (valid : presets.Valid)
    (unbounded : presets.main.textHeight = none) (spaced : 0 < presets.main.parSkip)
    {source : List Char} (plain : PlainSource source) :
    ∃ lines, (format presets source).outcome = .ok lines ∧
      (format presets (printed lines)).outcome = .ok lines := by
  have unmarked := plain.unmarked_lexemes
  obtain ⟨sets, legible, rows, again⟩ :=
    exists_sets presets.main true (inhabited_outline unmarked)
  have first : plainRows presets.main (lexemes source) = setRows presets.main true sets :=
    (congrArg Prod.snd (Composer.run_outline unmarked presets.main true)).trans rows
  have plainAgain := @plainSource_printed presets.main true sets legible
  have second : plainRows presets.main
      (lexemes (printed ((setRows presets.main true sets).map Row.text))) =
        setRows presets.main true sets := by
    refine (congrArg Prod.snd
      (Composer.run_outline plainAgain.unmarked_lexemes presets.main true)).trans ?_
    rw [outline_printed spaced legible, again]
  refine ⟨(setRows presets.main true sets).map Row.text, ?_, ?_⟩
  · rw [plain.outcome_format valid unbounded, first]
  · rw [plainAgain.outcome_format valid unbounded, second]

/-! ## Bytes -/

/-- Formatting a source succeeds and writes a text. -/
def Writes (presets : Presets) (source output : List Char) : Prop :=
  (writeFormatted presets source (.new none false)).2.outcome = .ok () ∧
    (writeFormatted presets source (.new none false)).1.written.toList = encode output

theorem encode_printed (lines : List (List Char)) : encode (printed lines) = encodeLines lines :=
  List.flatMap_assoc

theorem encode_injective {first second : List Char} (same : encode first = encode second) :
    first = second := by
  have decoded := congrArg decode? same
  rw [decode?_encode, decode?_encode] at decoded
  exact Option.some.inj decoded

theorem writes_of_format {presets : Presets} {source : List Char} {lines : List (List Char)}
    (formatted : (format presets source).outcome = .ok lines) :
    Writes presets source (printed lines) := by
  rw [Writes, encode_printed, writeFormatted, deliver_eq]
  generalize format presets source = report at formatted
  obtain ⟨outcome, warnings, journal⟩ := report
  cases formatted
  simp only [ByteWriter.writeAll_eq_put]
  rw [ByteWriter.put_of_fits (by simp)]
  exact ⟨rfl, rfl⟩

/-- **Formatting plain text is idempotent.** With pages without bound and empty lines between
paragraphs, plain text is formatted and written, and formatting what was written writes the same
again. -/
theorem writes_again {presets : Presets} (valid : presets.Valid)
    (unbounded : presets.main.textHeight = none) (spaced : 1 ≤ presets.main.parSkip)
    {source : List Char} (plain : PlainSource source) :
    (∃ output, Writes presets source output) ∧
      ∀ output, Writes presets source output → Writes presets output output := by
  obtain ⟨lines, formatted, again⟩ := format_printed valid unbounded spaced plain
  have written := writes_of_format formatted
  refine ⟨⟨printed lines, written⟩, fun output writes => ?_⟩
  have same : output = printed lines := encode_injective (writes.2.symm.trans written.2)
  rw [same]
  exact writes_of_format again

/-- Two paragraphs, the first of which is set in two lines with a stretched gap. -/
theorem writes_again_of_two_paragraphs :
    let presets : Presets := { Presets.default with main := { Settings.main with textWidth := 12 } }
    let source := "to  be\r\nor not\r\n \r\n\r\n  incomprehensible".toList
    let output := "   to  be or\nnot\n\n   incomprehensible\n".toList
    Writes presets source output ∧ Writes presets output output := by
  intro presets source output
  have valid : presets.Valid := Presets.invalid?_eq_none_iff.mp rfl
  have plain : PlainSource source := by decide +kernel
  have written : Writes presets source output := by
    constructor <;> decide +kernel
  exact ⟨written, (writes_again valid rfl (by decide) plain).2 output written⟩

end Galley
