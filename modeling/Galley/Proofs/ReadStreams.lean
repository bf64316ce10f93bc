import Galley.Proofs.PagedLines
import Galley.Proofs.StreamActions

/-! # What reading does to the streams of a document

Reading performs actions on the two streams of a document, whatever the places of the tokens are.
Main statement: a source that is read without a problem leaves each stream as its actions do
(`Galley.Reading.readsTo_read`).
-/

namespace Galley

open Composer (Action)

namespace Document

/-- `after` is `document` when actions have been performed on the stream that is being written,
whatever the journal says about them. -/
def Performs (document : Document) (actions : List Action) (after : Document) : Prop :=
  ∃ journal, after = { document.setActive (document.active.run actions) with journal }

theorem mode_setActive (document : Document) (stream : Stream) :
    (document.setActive stream).mode = document.mode := by
  unfold setActive
  split <;> rfl

namespace Performs

theorem refl (document : Document) : document.Performs [] document := by
  obtain ⟨main, notes, mode, nextNote, finished, journal⟩ := document
  cases mode <;> exact ⟨journal, rfl⟩

theorem record (document : Document) (records : List Record) :
    document.Performs [] (document.record records) := by
  refine ⟨document.journal ++ records, ?_⟩
  simp only [Stream.run_nil, Document.record, setActive, active]
  cases document.mode <;> rfl

theorem perform (document : Document) (action : Action) :
    document.Performs [action] (document.perform action) := by
  refine ⟨document.journal ++ (document.active.breaks action).map Record.pageBreak, ?_⟩
  simp only [Stream.run_cons, Stream.run_nil, Document.perform, Document.record, setActive, active]
  cases document.mode <;> rfl

theorem trans {document mid after : Document} {first second : List Action}
    (early : document.Performs first mid) (late : mid.Performs second after) :
    document.Performs (first ++ second) after := by
  obtain ⟨earlier, rfl⟩ := early
  obtain ⟨later, rfl⟩ := late
  refine ⟨later, ?_⟩
  simp only [Stream.run_append, setActive, active]
  cases document.mode <;> rfl

theorem mode_eq {document after : Document} {actions : List Action}
    (performs : document.Performs actions after) : after.mode = document.mode := by
  obtain ⟨journal, rfl⟩ := performs
  exact document.mode_setActive _

theorem normal {document after : Document} {actions : List Action}
    (performs : document.Performs actions after) (normal : document.mode = .normal) :
    ∃ journal, after = { document with main := document.main.run actions, journal } := by
  obtain ⟨journal, rfl⟩ := performs
  exact ⟨journal, by simp only [setActive, active, normal]⟩

theorem endnote {document after : Document} {actions : List Action}
    (performs : document.Performs actions after) (inside : document.mode = .endnote) :
    ∃ journal, after = { document with notes := document.notes.run actions, journal } := by
  obtain ⟨journal, rfl⟩ := performs
  exact ⟨journal, by simp only [setActive, active, inside]⟩

end Performs

/-- Setting a measure with success performs the change, or nothing if the mode does not heed it. -/
theorem performs_setMeasure {document after : Document} {measure : Measure} {value : Int}
    (set : document.setMeasure measure value = .ok after) :
    document.Performs
      ([Action.change (.measure measure value.toNat)].filter document.mode.heeds) after := by
  unfold setMeasure at set
  split at set
  · rename_i ignored
    cases set
    rw [ignored.1, ignored.2]
    exact .record document _
  · rename_i heeded
    cases checked : measure.requirement.check value with
    | error invalid => simp [checked, Except.map] at set
    | ok number =>
        rw [checked] at set
        cases set
        obtain ⟨_, same⟩ := Requirement.check_eq_ok_iff.mp checked
        have kept : document.mode.heeds (.change (.measure measure value.toNat)) = true := by
          cases mode : document.mode <;> cases measure <;> simp_all [Mode.heeds]
        rw [List.filter_cons_of_pos kept, List.filter_nil, same, Int.toNat_natCast]
        exact .perform document _

end Document

namespace Reading

open Document (Performs)

/-- Writing performs one addition of text, with the label before it if the label is due. -/
theorem performs_write (reading : Reading) (text : List Char) :
    reading.document.Performs
        [.addText ((reading.pending.map Document.noteLabel).getD [] ++ text)]
        (reading.write text).document ∧
      (reading.write text).pending = none := by
  unfold write
  split
  · rename_i none
    rw [none]
    exact ⟨.perform _ _, none⟩
  · rename_i number due
    rw [due]
    exact ⟨.perform _ _, rfl⟩

theorem performs_quiet {reading next : Reading} {directive : Directive}
    (quiet : ∀ text, directive ≠ .write text) (followed : reading.obey directive = (next, none)) :
    reading.document.Performs (directive.actions.filter reading.document.mode.heeds)
        next.document ∧
      next.pending = reading.pending := by
  cases directive with
  | endWord =>
      cases followed
      rw [Mode.filter_heeds _ (by simp [Directive.actions])]
      exact ⟨.perform _ _, rfl⟩
  | endLine =>
      cases followed
      rw [Mode.filter_heeds _ (by simp [Directive.actions])]
      exact ⟨(Performs.perform _ _).trans (.perform _ _), rfl⟩
  | endParagraph =>
      cases followed
      rw [Mode.filter_heeds _ (by simp [Directive.actions])]
      exact ⟨(Performs.perform _ _).trans (.perform _ _), rfl⟩
  | write text => exact absurd rfl (quiet text)
  | measure measure value command argument =>
      simp only [obey] at followed
      split at followed
      · rename_i document set
        cases followed
        exact ⟨Document.performs_setMeasure set, rfl⟩
      · simp at followed
  | switch switch on =>
      cases followed
      rw [Mode.filter_heeds _ (by simp [Directive.actions])]
      exact ⟨.perform _ _, rfl⟩
  | skip name =>
      cases followed
      exact ⟨.record _ _, rfl⟩
  | note command body => simp [obey] at followed

/-- A directive that is followed performs its actions as far as the mode heeds them. If it adds
text, a label that is due comes first and is due no more. -/
theorem performs_obey {reading next : Reading} {directive : Directive}
    (followed : reading.obey directive = (next, none)) :
    ∃ performed, reading.document.Performs performed next.document ∧
      (∀ later,
        labelled reading.pending (directive.actions.filter reading.document.mode.heeds ++ later) =
          performed ++ labelled next.pending later) ∧
      (reading.pending = none → next.pending = none) := by
  by_cases written : ∃ text, directive = .write text
  · obtain ⟨text, rfl⟩ := written
    cases followed
    obtain ⟨performs, due⟩ := reading.performs_write text
    refine ⟨_, performs, fun later => ?_, fun _ => due⟩
    rw [due, labelled_none, Mode.filter_heeds _ (by simp [Directive.actions])]
    exact labelled_addText _ _ _
  · have quiet := not_exists.mp written
    obtain ⟨performs, due⟩ := performs_quiet quiet followed
    refine ⟨_, performs, fun later => ?_, due.trans⟩
    rw [due]
    apply labelled_append
    intro text member
    exact Directive.addText_not_mem_actions quiet text (List.mem_filter.mp member).1

theorem mode_obey {reading next : Reading} {directive : Directive}
    (followed : reading.obey directive = (next, none)) :
    next.document.mode = reading.document.mode := by
  obtain ⟨performed, performs, -⟩ := performs_obey followed
  exact performs.mode_eq

theorem plain_of_obey {reading next : Reading} {directive : Directive}
    (followed : reading.obey directive = (next, none)) : directive.Plain := by
  rintro command body rfl
  simp [obey] at followed

theorem follow_of_plain (reading : Reading) {directive : Directive} (plain : directive.Plain) :
    reading.follow directive = reading.obey directive := by
  unfold follow
  split
  · exact absurd rfl (plain _ _)
  · rfl

theorem follow_note {reading : Reading} (normal : reading.document.mode = .normal)
    (command : Piece) (body : List Token) :
    reading.follow (.note command body) = reading.readNote body := by
  rw [follow, normal]

theorem performs_writePending (reading : Reading) :
    reading.document.Performs (labelled reading.pending []) reading.writePending.document := by
  unfold writePending
  split
  · rename_i none
    rw [none]
    exact .refl _
  · rename_i number due
    rw [due]
    exact .perform _ _

/-- The body of an endnote, read without a problem, performs the actions of its lexemes with the
label before the first text. -/
theorem performs_readBody {tokens : List Token} {reading next : Reading}
    (inside : reading.document.mode = .endnote)
    (read : reading.readWith obey (.ofTokens tokens) = (next, none)) :
    reading.document.Performs (labelled reading.pending (bodyActions (tokens.map Token.lexeme)))
      next.writePending.document := by
  induction tokens generalizing reading with
  | nil =>
      cases read
      exact performs_writePending _
  | cons token tokens ih =>
      rw [Script.ofTokens, List.map_cons] at read
      cases asked : token.directive with
      | error problem => simp [asked, readWith] at read
      | ok directive =>
          rw [asked, readWith] at read
          split at read
          · rename_i mid followed
            obtain ⟨_, actions⟩ := Token.actions_of_directive asked (plain_of_obey followed)
            obtain ⟨performed, first, due, -⟩ := performs_obey followed
            have rest := ih (first.mode_eq.trans inside) read
            rw [inside] at due
            rw [List.map_cons, bodyActions_cons, ← actions, due]
            exact first.trans rest
          · simp at read

/-- An endnote that is read without a problem adds its reference to the word being built in the
main text and performs its actions on the endnotes. -/
theorem readNote_eq {reading next : Reading} {body : List Token} {text : List Char}
    (spelled : body.map Token.lexeme = lexemes text)
    (read : reading.readNote body = (next, none)) :
    next.pending = reading.pending ∧ ∃ journal, next.document =
      { reading.document with
        main := reading.document.main.step
          (.addText (Document.noteMark reading.document.nextNote))
        notes := reading.document.notes.run (noteActions reading.document.nextNote text)
        mode := .normal
        nextNote := reading.document.nextNote + 1
        journal } := by
  simp only [readNote] at read
  split at read
  · simp at read
  · rename_i mid followed
    cases read
    refine ⟨rfl, ?_⟩
    have body := performs_readBody rfl followed
    rw [spelled] at body
    have whole := body.trans (.perform _ .endParagraph)
    obtain ⟨journal, same⟩ := whole.endnote rfl
    refine ⟨journal ++ [Record.noteFinished (mid.writePending.document.nextNote - 1)], ?_⟩
    simp only [Document.endNote, same]
    rfl

end Reading

/-- `after` is `document` in normal mode when lexemes have been read without a problem, whatever the
journal says about them: both streams have performed their actions. -/
def Document.ReadsTo (document : Document) (units : List Lexeme) (after : Document) : Prop :=
  ∃ journal, after =
    { document with
      main := document.main.run (mainActions document.nextNote units)
      notes := document.notes.run (notesActions document.nextNote (noteBodies units))
      nextNote := document.nextNote + (noteBodies units).length
      journal }

theorem Document.ReadsTo.trans {document mid after : Document} {first second : List Lexeme}
    (early : document.ReadsTo first mid) (late : mid.ReadsTo second after) :
    document.ReadsTo (first ++ second) after := by
  obtain ⟨earlier, rfl⟩ := early
  obtain ⟨later, rfl⟩ := late
  refine ⟨later, ?_⟩
  simp only [mainActions_append, notesActions_append, noteBodies_append, Stream.run_append,
    List.length_append, Nat.add_assoc]

namespace Reading

theorem readsTo_follow {reading next : Reading} {token : Token} {directive : Directive}
    (normal : reading.document.mode = .normal) (due : reading.pending = none)
    (asked : token.directive = .ok directive) (followed : reading.follow directive = (next, none)) :
    next.pending = none ∧ reading.document.ReadsTo [token.lexeme] next.document := by
  rcases directive.note_or_plain with ⟨command, body, rfl⟩ | plain
  · obtain ⟨text, noted, spelled⟩ := Token.noteBody?_of_directive_eq_note asked
    rw [follow_note normal] at followed
    obtain ⟨pending, journal, same⟩ := readNote_eq spelled followed
    refine ⟨pending.trans due, journal, ?_⟩
    rw [same]
    simp [mainActions, noteBodies, notesActions, noted, normal]
  · obtain ⟨noted, actions⟩ := Token.actions_of_directive asked plain
    rw [follow_of_plain reading plain] at followed
    obtain ⟨performed, performs, labels, pending⟩ := performs_obey followed
    -- No label is due in the main text, and all actions are heeded there.
    have all : directive.actions.filter reading.document.mode.heeds = directive.actions :=
      List.filter_eq_self.mpr fun action _ => by
        rw [normal]
        rfl
    have whole := labels []
    rw [pending due, due, labelled_none, labelled_none, all, List.append_nil, List.append_nil]
      at whole
    obtain ⟨journal, same⟩ := performs.normal normal
    refine ⟨pending due, journal, ?_⟩
    rw [same, ← whole]
    simp [mainActions, noteBodies, notesActions, noted, actions]

/-- **Reading runs two streams.** A main text that is read without a problem leaves each stream as
its actions do. -/
theorem readsTo_read {tokens : List Token} {reading next : Reading}
    (normal : reading.document.mode = .normal) (due : reading.pending = none)
    (read : reading.read (.ofTokens tokens) = (next, none)) :
    reading.document.ReadsTo (tokens.map Token.lexeme) next.document := by
  induction tokens generalizing reading with
  | nil =>
      cases read
      exact ⟨_, rfl⟩
  | cons token tokens ih =>
      rw [Reading.read, Script.ofTokens, List.map_cons] at read
      cases asked : token.directive with
      | error problem => simp [asked, readWith] at read
      | ok directive =>
          rw [asked, readWith] at read
          split at read
          · rename_i mid followed
            obtain ⟨pending, first⟩ := readsTo_follow normal due asked followed
            have kept : mid.document.mode = .normal := by
              obtain ⟨journal, same⟩ := first
              rw [same]
              exact normal
            exact first.trans (ih kept pending read)
          · simp at read

end Reading
end Galley
