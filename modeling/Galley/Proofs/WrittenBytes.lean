import Mathlib.Control.Monad.Basic
import Galley.Proofs.ScannedLexemes
import Galley.Proofs.TextConservation

/-! # Documents as bytes

A sink receives the lines of a document all at once and only if the document has no problem
(`Galley.deliver_eq`). Writing lines is writing their bytes in one block, as far as there is room
(`Galley.ByteWriter.writeAll_eq_put`), and the lines can be read back from the bytes because none of
them contains a line end (`Galley.withinLine_of_format`). Main statement:
`Galley.writeFormatted_agrees`.
-/

namespace Galley

/-! ## No line contains a line end -/

/-- The text contains neither of the characters that end a line. -/
def WithinLine (text : List Char) : Prop :=
  '\n' ∉ text ∧ '\r' ∉ text

namespace WithinLine

instance (text : List Char) : Decidable (WithinLine text) :=
  inferInstanceAs (Decidable (_ ∧ _))

@[simp] theorem nil : WithinLine [] := by
  simp [WithinLine]

@[simp] theorem append_iff {first second : List Char} :
    WithinLine (first ++ second) ↔ WithinLine first ∧ WithinLine second := by
  simp only [WithinLine, List.mem_append, not_or]
  exact and_and_and_comm

@[simp] theorem flatten_iff {texts : List (List Char)} :
    WithinLine texts.flatten ↔ ∀ text ∈ texts, WithinLine text := by
  induction texts with
  | nil => simp
  | cons text rest ih => rw [List.flatten_cons, append_iff, ih, List.forall_mem_cons]

/-- Line ends are neither blanks nor page marks. -/
@[simp] theorem solid_iff {text : List Char} : WithinLine (solid text) ↔ WithinLine text := by
  simp [WithinLine, solid, pageBreak]

end WithinLine

/-- The lexer keeps line ends out of the text. -/
theorem withinLine_plain {text : List Char} {unit : Lexeme} (member : unit ∈ lexemes text) :
    WithinLine unit.plain := by
  obtain ⟨before, after, split⟩ := List.append_of_mem member
  have cut := cutBefore_of_lexemes_eq split
  -- What follows an unclosed command is nothing, which `cases` can only use of a variable.
  generalize after.flatMap Lexeme.spelling = rest at cut
  cases cut with
  | text _ ordinary _ =>
      constructor <;> intro found <;> simpa [isSpecial] using ordinary _ found
  | escaped escapable =>
      constructor <;> intro found <;> cases List.mem_singleton.mp found <;>
        simp [isEscapable, isBlank] at escapable
  | _ => exact .nil

theorem withinLine_noteMark (number : Nat) : WithinLine (Document.noteMark number) := by
  have digits : WithinLine (toString number).toList := by
    rw [Nat.toString_eq_repr, Nat.toList_repr]
    constructor <;> intro found <;>
      exact absurd (Nat.isDigit_of_mem_toDigits (by decide) (by decide) found) (by decide)
  have opened : WithinLine (['['] ++ (toString number).toList) :=
    WithinLine.append_iff.mpr ⟨by decide, digits⟩
  exact WithinLine.append_iff.mpr ⟨opened, by decide⟩

theorem withinLine_mainText {units : List Lexeme}
    (plain : ∀ unit ∈ units, WithinLine unit.plain) (number : Nat) :
    WithinLine (mainText number units) := by
  induction units generalizing number with
  | nil => exact .nil
  | cons unit rest ih =>
      obtain ⟨first, later⟩ := List.forall_mem_cons.mp plain
      unfold mainText
      split
      · simp [withinLine_noteMark, ih later]
      · simp [first, ih later]

theorem withinLine_noteTexts (number : Nat) (bodies : List (List Char)) :
    WithinLine (noteTexts number bodies).flatten := by
  induction bodies generalizing number with
  | nil => exact .nil
  | cons body rest ih =>
      have plain : WithinLine (plainText (lexemes body)) := by
        rw [plainText, List.flatMap_def]
        simpa using fun unit member => withinLine_plain member
      rw [noteTexts, List.flatten_cons]
      simp [withinLine_noteMark, plain, ih]

/-- Text reaches the lines without line ends, and paging adds none. -/
theorem withinLine_of_format {presets : Presets} {source : List Char} {lines : List (List Char)}
    (formatted : (format presets source).outcome = .ok lines) :
    ∀ line ∈ lines, WithinLine line := by
  rw [← WithinLine.flatten_iff, ← WithinLine.solid_iff, lines_of_format formatted,
    lines_noteStream, Pages.solid_lines_addAll, solid_lines_mainStream,
    solid_rowTexts_notesActions ⟨rfl, rfl⟩, ← solid_append, WithinLine.solid_iff,
    WithinLine.append_iff]
  exact ⟨withinLine_mainText (fun unit member => withinLine_plain member) 1,
    withinLine_noteTexts 1 _⟩

/-! ## Lines and their bytes -/

/-- The byte of a line feed. -/
def lineFeed : UInt8 := 10

/-- The bytes of lines, each of them with a line feed after it. -/
def encodeLines (lines : List (List Char)) : List UInt8 :=
  lines.flatMap fun line => encode (line ++ ['\n'])

/-- The text that bytes encode, if they encode one. -/
def decode? (bytes : List UInt8) : Option (List Char) :=
  bytes.toByteArray.utf8Decode?.map Array.toList

theorem decode?_encode (text : List Char) : decode? (encode text) = some text := by
  have decoded := List.utf8Decode?_utf8Encode (l := text)
  rw [List.utf8Encode] at decoded
  rw [decode?, encode, decoded]
  rfl

/-- Only a line feed has the byte of a line feed in its encoding. -/
theorem lineFeed_mem_utf8EncodeChar {char : Char} (member : lineFeed ∈ String.utf8EncodeChar char) :
    char = '\n' := by
  simp only [String.utf8EncodeChar] at member
  split at member
  · rename_i ascii
    have code : 10 = char.toNat % 256 := congrArg UInt8.toNat (List.mem_singleton.mp member)
    have small : char.toNat < 256 := Nat.lt_of_le_of_lt ascii (by decide)
    rw [Nat.mod_eq_of_lt small] at code
    exact Char.toNat_inj.mp code.symm
  -- All bytes of a longer encoding have their highest bit set.
  · (repeat' split at member) <;>
      simp only [List.mem_cons, ← UInt8.toNat_inj, List.not_mem_nil, or_false, lineFeed,
        UInt8.toNat_ofNat', UInt8.toNat_ofNat] at member <;> omega

theorem encode_append_lineFeed (line : List Char) :
    encode (line ++ ['\n']) = encode line ++ [lineFeed] :=
  List.flatMap_append

theorem encodeLines_cons (line : List Char) (rest : List (List Char)) :
    encodeLines (line :: rest) = encode (line ++ ['\n']) ++ encodeLines rest :=
  List.flatMap_cons

/-- Lines are read back by splitting their bytes behind each line feed. -/
theorem splitOn_encodeLines {lines : List (List Char)} (within : ∀ line ∈ lines, WithinLine line) :
    (encodeLines lines).splitOn lineFeed = lines.map encode ++ [[]] := by
  induction lines with
  | nil => rfl
  | cons line rest ih =>
      obtain ⟨first, later⟩ := List.forall_mem_cons.mp within
      have unfed : lineFeed ∉ encode line := by
        intro member
        obtain ⟨char, spelled, found⟩ := List.mem_flatMap.mp member
        exact first.1 (lineFeed_mem_utf8EncodeChar found ▸ spelled)
      rw [encodeLines_cons, encode_append_lineFeed, List.append_assoc, List.singleton_append,
        List.splitOn_append_cons_self_of_not_mem unfed, ih later]
      rfl

theorem decode?_splitOn_encodeLines {lines : List (List Char)}
    (within : ∀ line ∈ lines, WithinLine line) :
    ((encodeLines lines).splitOn lineFeed).map decode? = lines.map some ++ [some []] := by
  have texts : lines.map (decode? ∘ encode) = lines.map some :=
    List.map_congr_left fun line _ => decode?_encode line
  rw [splitOn_encodeLines within, List.map_append, List.map_map, texts]
  exact congrArg (fun last => lines.map some ++ [last]) (decode?_encode [])

namespace ByteWriter

/-! ## Writing bytes as far as there is room -/

/-- Write bytes, or as many of them as there is room for. -/
def put (writer : ByteWriter) (bytes : List UInt8) : ByteWriter × Option String :=
  let kept := writer.fitting bytes
  ({ writer with written := writer.written ++ kept.toArray },
    if kept.length < bytes.length then some "writer is full" else none)

theorem write_eq_put (writer : ByteWriter) (line : List Char) :
    Sink.write writer line = writer.put (encode (line ++ ['\n'])) := rfl

theorem put_of_fits {room : Option Nat} {bytes : List UInt8}
    (fits : ∀ bound ∈ room, bytes.length ≤ bound) (flushFails : Bool) :
    (new room flushFails).put bytes = (⟨room, flushFails, bytes.toArray, 0⟩, none) := by
  have whole : (new room flushFails).fitting bytes = bytes := by
    cases room with
    | none => rfl
    | some bound => exact List.take_of_length_le (fits bound rfl)
  rw [put, whole]
  simp [new]

theorem put_of_short {bound : Nat} {bytes : List UInt8} (short : bound < bytes.length)
    (flushFails : Bool) :
    (new (some bound) flushFails).put bytes =
      (⟨some bound, flushFails, (bytes.take bound).toArray, 0⟩, some "writer is full") := by
  have less : min bound bytes.length < bytes.length := by omega
  simp [put, fitting, new, less]

@[simp] theorem put_nil (writer : ByteWriter) : writer.put [] = (writer, none) := by
  unfold put fitting
  split <;> simp

/-- Bytes can be written in two blocks, where a writer that is full after the first refuses the
second. -/
theorem put_append (writer : ByteWriter) (first second : List UInt8) :
    writer.put (first ++ second) =
      match writer.put first with
      | (next, none) => next.put second
      | (next, some reason) => (next, some reason) := by
  obtain ⟨_ | room, flushFails, written, flushes⟩ := writer
  · simp [put, fitting]
  · by_cases short : room - written.size < first.length
    -- The first block is cut off, and the whole is cut off at the same place.
    · have kept : (first ++ second).take (room - written.size) =
          first.take (room - written.size) := List.take_append_of_le_length (by omega)
      have less : min (room - written.size) first.length < first.length := by omega
      simp only [put, fitting, kept, List.length_take, List.length_append, if_pos less]
      rw [if_pos (by omega)]
    -- The first block fits, so the cut is measured from its end.
    · have kept : first.take (room - written.size) = first := List.take_of_length_le (by omega)
      have left : room - written.size - first.length = room - (written.size + first.length) := by
        omega
      simp [put, fitting, kept, List.take_append, left]

/-- **Writing lines** is writing their bytes in one block. -/
theorem writeAll_eq_put (writer : ByteWriter) (lines : List (List Char)) :
    Sink.writeAll writer lines = writer.put (encodeLines lines) := by
  induction lines generalizing writer with
  | nil => exact (put_nil writer).symm
  | cons line rest ih =>
      rw [Sink.writeAll, encodeLines_cons, put_append, write_eq_put]
      obtain ⟨next, _ | reason⟩ := writer.put (encode (line ++ ['\n']))
      · exact ih next
      · rfl

end ByteWriter

/-! ## Delivery to any sink -/

/-- **Any sink** is given what formatting collects, and nothing if formatting fails. -/
theorem deliver_eq {σ : Type} [Sink σ] (presets : Presets) (source : List Char) (sink : σ) :
    deliver presets source sink =
      match format presets source with
      | ⟨.error failure, warnings, journal⟩ => (sink, ⟨.error failure, warnings, journal⟩)
      | ⟨.ok lines, warnings, journal⟩ =>
          let (delivered, refused) := Sink.writeAll sink lines
          (delivered, ⟨match refused with
            | none => .ok ()
            | some reason => .error (.output reason), warnings, journal⟩) := by
  unfold format deliver
  split
  · rfl
  · simp only [Session.read, Session.new]
    obtain ⟨reading, _ | ⟨problem, rest⟩⟩ :=
      Reading.read ⟨.new presets, none, (Reader.new source).warnings⟩ (Reader.new source).rest
    · rcases sunk : Sink.writeAll sink (reading.document.close.2.map PageLine.render) with
        ⟨delivered, _ | reason⟩ <;>
        simp [Session.close, Collector.new, Collector.writeAll_of_unbounded, Except.map, sunk]
    · rfl

/-- Writing a document agrees with formatting it. The writer is new and has room for `room` bytes,
or for any number of them. A document that has a failure leaves it as it is. Otherwise the bytes of
the lines are written and then flushed, or, if there is no room for all of them, as many as fit and
then nothing is flushed. The lines can be read back from their bytes. -/
structure WritingAgrees (formatted : Report (List (List Char))) (room : Option Nat)
    (flushFails : Bool) (written : ByteWriter × Report Unit) : Prop where
  warnings : written.2.warnings = formatted.warnings
  failed : ∀ failure, formatted.outcome = .error failure →
    written.2.outcome = .error failure ∧ written.1 = .new room flushFails
  completed : ∀ lines, formatted.outcome = .ok lines →
    (∀ bound ∈ room, (encodeLines lines).length ≤ bound) →
      written.2.outcome = (if flushFails then .error (.output "flush failed") else .ok ()) ∧
        written.1.written.toList = encodeLines lines ∧ written.1.flushes = 1
  cut : ∀ lines bound, formatted.outcome = .ok lines → room = some bound →
    bound < (encodeLines lines).length →
      written.2.outcome = .error (.output "writer is full") ∧
        written.1.written.toList = (encodeLines lines).take bound ∧ written.1.flushes = 0
  readable : ∀ lines, formatted.outcome = .ok lines →
    (∀ line ∈ lines, WithinLine line) ∧
      ((encodeLines lines).splitOn lineFeed).map decode? = lines.map some ++ [some []]

/-- **Writing a document agrees with formatting it**, whatever the document and the presets are and
however much the writer takes. -/
theorem writeFormatted_agrees (presets : Presets) (source : List Char) (room : Option Nat)
    (flushFails : Bool) :
    WritingAgrees (format presets source) room flushFails
      (writeFormatted presets source (.new room flushFails)) := by
  have within : ∀ lines, (format presets source).outcome = .ok lines →
      ∀ line ∈ lines, WithinLine line := fun _ => withinLine_of_format
  rw [writeFormatted, deliver_eq]
  generalize format presets source = formatted at within ⊢
  have readable (lines : List (List Char)) (ok : formatted.outcome = .ok lines) :=
    And.intro (within lines ok) (decode?_splitOn_encodeLines (within lines ok))
  obtain ⟨failure | lines, warnings, journal⟩ := formatted
  · refine ⟨rfl, ?_, by simp, by simp, readable⟩
    rintro _ ⟨⟩
    exact ⟨rfl, rfl⟩
  · simp only [ByteWriter.writeAll_eq_put]
    by_cases fits : ∀ bound ∈ room, (encodeLines lines).length ≤ bound
    · rw [ByteWriter.put_of_fits fits]
      refine ⟨by cases flushFails <;> rfl, by simp, ?_, ?_, readable⟩
      · rintro _ ⟨⟩ -
        cases flushFails <;> exact ⟨rfl, rfl, rfl⟩
      · rintro _ bound ⟨⟩ rfl short
        exact absurd (fits bound rfl) (by omega)
    · obtain ⟨bound, rfl, short⟩ : ∃ bound, room = some bound ∧
          bound < (encodeLines lines).length := by
        simpa using fits
      rw [ByteWriter.put_of_short short]
      refine ⟨rfl, by simp, ?_, ?_, readable⟩
      · rintro _ ⟨⟩ enough
        exact absurd enough fits
      · rintro _ _ ⟨⟩ ⟨⟩ -
        exact ⟨rfl, rfl, rfl⟩

/-- A writer that is full inside the second line. -/
theorem writeFormatted_agrees_of_short_room :
    let source := "é\\endnote\x7bb\x7d".toList
    let written := writeFormatted .default source (.new (some 10) false)
    written.2.outcome = .error (.output "writer is full") ∧
      written.1.written.toList = encode "   é[1]\n[".toList ∧ written.1.flushes = 0 :=
  (writeFormatted_agrees .default _ (some 10) false).cut ["   é[1]".toList, "[1] b".toList] 10
    (by decide +kernel) rfl (by decide +kernel)

end Galley
