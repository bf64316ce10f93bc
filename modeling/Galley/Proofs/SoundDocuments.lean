import Galley.Proofs.Delivery
import Galley.Proofs.FilledPages
import Galley.Proofs.SetParagraphs

/-! # Documents stay sound

A document that starts with valid presets keeps their bounds whatever is asked of its session, and
nothing of an endnote is left in hand when the main text goes on: one lemma for each operation of a
document, then for each step of reading, and then for whole sessions. Main statement:
`Galley.Session.sound_serve`.
-/

namespace Galley

open Composer (Action)

/-! ## Streams -/

/-- An action that is performed in a mode only if its number is allowed and the mode heeds it. -/
def Composer.Action.Permitted (mode : Mode) (action : Action) : Prop :=
  ∀ measure value, action = .change (.measure measure value) →
    measure.requirement.allows value ∧ mode.heeds action

namespace Stream

/-- A stream whose settings keep their bounds, with pages of the height that the settings say. -/
structure Sound (stream : Stream) : Prop where
  width : 0 < stream.settings.textWidth
  height : ∀ height ∈ stream.settings.textHeight, 0 < height
  paged : stream.pages.height = stream.settings.textHeight

theorem sound_new {settings : Settings} (width : 0 < settings.textWidth)
    (height : ∀ height ∈ settings.textHeight, 0 < height) : (new settings).Sound :=
  ⟨width, height, rfl⟩

/-- A measure that is changed to an allowed number keeps the bounds. -/
theorem Sound.step_measure {stream : Stream} (sound : stream.Sound) {measure : Measure}
    {value : Nat} (allowed : measure.requirement.allows value) :
    (stream.step (.change (.measure measure value))).Sound := by
  obtain ⟨width, height, paged⟩ := sound
  cases measure with
  | textWidth =>
      have positive : 0 < value := by
        simpa [Measure.requirement, Requirement.allows] using allowed
      exact ⟨positive, height, paged⟩
  | textHeight =>
      refine ⟨width, fun set member => ?_, rfl⟩
      cases Option.mem_some.mp member
      simpa [Measure.requirement, Requirement.allows] using allowed
  | indentation | parIndentation | parSkip => exact ⟨width, height, paged⟩

/-- An action that is no change leaves the settings and the height of pages alone. -/
theorem step_of_fixed (stream : Stream) {action : Action}
    (fixed : ∀ change, action ≠ .change change) :
    (stream.step action).settings = stream.settings ∧
      (stream.step action).pages = stream.pages.addAll (stream.finished action) := by
  exact ⟨(stream.composer.moves_step fixed).settings_eq, stream.pages_step fun _ => fixed _⟩

theorem Sound.step {stream : Stream} (sound : stream.Sound) {action : Action}
    (allowed : ∀ measure value, action = .change (.measure measure value) →
      measure.requirement.allows value) : (stream.step action).Sound := by
  by_cases changes : ∃ change, action = .change change
  · obtain ⟨change, rfl⟩ := changes
    cases change with
    | measure measure value => exact sound.step_measure (allowed measure value rfl)
    | switch switch on =>
        cases switch <;> exact ⟨sound.width, sound.height, sound.paged⟩
  · obtain ⟨settings, pages⟩ := stream.step_of_fixed (not_exists.mp changes)
    refine ⟨?_, ?_, ?_⟩
    · rw [settings]
      exact sound.width
    · rw [settings]
      exact sound.height
    · rw [settings, pages, Pages.height_addAll, sound.paged]

/-- A stream on pages without bound, where no line is marked. -/
structure Unpaged (stream : Stream) : Prop where
  unbounded : stream.settings.textHeight = none
  unmarked : Unmarked stream.pages.held.toList

theorem Unpaged.step {stream : Stream} (unpaged : stream.Unpaged) (sound : stream.Sound)
    {action : Action} (other : ∀ height, action ≠ .change (.measure .textHeight height)) :
    (stream.step action).Unpaged := by
  constructor
  · by_cases changes : ∃ change, action = .change change
    · obtain ⟨change, rfl⟩ := changes
      cases change with
      | measure measure value =>
          cases measure with
          | textHeight => exact absurd rfl (other value)
          | _ => exact unpaged.unbounded
      | switch switch on => cases switch <;> exact unpaged.unbounded
    · rw [(stream.step_of_fixed (not_exists.mp changes)).1, unpaged.unbounded]
  · rw [stream.pages_step other, Pages.held_addAll,
      Pages.laid_of_unbounded (sound.paged.trans unpaged.unbounded)]
    intro line member
    rcases List.mem_append.mp member with early | late
    · exact unpaged.unmarked line early
    · obtain ⟨text, -, rfl⟩ := List.mem_map.mp late
      rfl

end Stream

/-! ## Documents -/

/-- The number of the endnote that a record of the journal says has started. -/
def Record.startedNote? : Record → Option Nat
  | .noteStarted number => some number
  | _ => none

namespace Document

/-- The numbers of the endnotes that have started, in their order. -/
def begun (document : Document) : List Nat :=
  document.journal.toList.filterMap Record.startedNote?

theorem begun_record (document : Document) (records : List Record) :
    (document.record records).begun =
      document.begun ++ records.filterMap Record.startedNote? := by
  simp [begun, record]

theorem begun_beginNote (document : Document) :
    document.beginNote.begun = document.begun ++ [document.nextNote] := by
  simp [begun, beginNote, Record.startedNote?]

/-- The numbers of endnotes that have started, and the number of the next one: they count from
one. -/
structure Numbered (document : Document) : Prop where
  consecutive : document.begun = List.range' 1 document.begun.length
  next : document.nextNote = 1 + document.begun.length

/-- A document in the state that every session keeps it in. -/
structure Sound (document : Document) : Prop where
  main : document.main.Sound
  notes : document.notes.Sound
  /-- Endnotes are paged together with the main text, so pages are no matter of their own. -/
  unpaged : document.notes.Unpaged
  /-- No text of an endnote is in hand while the main text is written. -/
  idle : document.mode = .normal → document.notes.composer.Idle
  numbered : document.Numbered

theorem sound_new {presets : Presets} (valid : presets.Valid) : (new presets).Sound where
  main := Stream.sound_new (valid .main).1 (valid .main).2
  notes := Stream.sound_new (valid .endnote).1 (by simp)
  unpaged := ⟨rfl, by simp [new, Stream.new, Pages.new, Unmarked]⟩
  idle := fun _ => ⟨rfl, rfl⟩
  numbered := ⟨rfl, rfl⟩

theorem begun_perform (document : Document) (action : Action) :
    (document.perform action).begun = document.begun := by
  have same : (document.setActive (document.active.step action)).begun = document.begun := by
    unfold setActive
    split <;> rfl
  rw [perform, begun_record, same, List.filterMap_map, List.append_right_eq_self,
    List.filterMap_eq_nil_iff]
  intro line _
  rfl

theorem begun_setMeasure {document after : Document} {measure : Measure} {value : Int}
    (set : document.setMeasure measure value = .ok after) : after.begun = document.begun := by
  unfold setMeasure at set
  split at set
  · cases set
    exact (begun_record _ _).trans (List.append_nil _)
  · cases checked : measure.requirement.check value with
    | error invalid => simp [checked, Except.map] at set
    | ok number =>
        rw [checked] at set
        cases set
        exact document.begun_perform _

theorem begun_close (document : Document) : document.close.1.begun = document.begun := by
  have ended := document.begun_perform .endParagraph
  unfold close
  split
  · rw [endNote, begun_record]
    exact (List.append_nil _).trans ended
  · split
    · rfl
    · rw [finish, begun_record, List.filterMap_append, List.filterMap_map]
      have quiet (lines : List Nat) :
          lines.filterMap (Record.startedNote? ∘ Record.pageBreak) = [] :=
        List.filterMap_eq_nil_iff.mpr fun _ _ => rfl
      rw [quiet]
      exact (List.append_nil _).trans ended

theorem nextNote_perform (document : Document) (action : Action) :
    (document.perform action).nextNote = document.nextNote := by
  obtain ⟨journal, same⟩ := Performs.perform document action
  rw [same, setActive]
  split <;> rfl

theorem Numbered.of_eq {document after : Document} (numbered : document.Numbered)
    (begun : after.begun = document.begun) (next : after.nextNote = document.nextNote) :
    after.Numbered := by
  obtain ⟨consecutive, nextNote⟩ := numbered
  exact ⟨by rw [begun, ← consecutive], by rw [begun, next, nextNote]⟩

theorem Numbered.beginNote {document : Document} (numbered : document.Numbered) :
    document.beginNote.Numbered := by
  have begun := document.begun_beginNote
  obtain ⟨consecutive, nextNote⟩ := numbered
  constructor
  · rw [begun, List.length_append, List.length_singleton, List.range'_1_concat, ← consecutive,
      nextNote]
  · rw [begun, List.length_append, List.length_singleton, ← Nat.add_assoc, ← nextNote]
    rfl

namespace Sound

variable {document : Document}

/-- A record that no endnote has started changes nothing. -/
theorem record (sound : document.Sound) {records : List Record}
    (quiet : records.filterMap Record.startedNote? = []) : (document.record records).Sound where
  main := sound.main
  notes := sound.notes
  unpaged := sound.unpaged
  idle := sound.idle
  numbered := sound.numbered.of_eq (by rw [begun_record, quiet, List.append_nil]) rfl

theorem perform (sound : document.Sound) {action : Action}
    (permitted : action.Permitted document.mode) : (document.perform action).Sound := by
  have allowed measure value same := (permitted measure value same).1
  have numbered : (document.perform action).Numbered :=
    sound.numbered.of_eq (document.begun_perform action) (document.nextNote_perform action)
  obtain ⟨journal, same⟩ := Performs.perform document action
  rw [same] at numbered ⊢
  cases mode : document.mode with
  | normal =>
      simp only [setActive, active, mode] at numbered ⊢
      exact ⟨sound.main.step allowed, sound.notes, sound.unpaged, fun _ => sound.idle mode,
        numbered⟩
  | endnote =>
      simp only [setActive, active, mode] at numbered ⊢
      refine ⟨sound.main, sound.notes.step allowed, ?_, fun normal => ?_, numbered⟩
      -- The height of pages is not heeded here, so those of the endnotes stay without bound.
      · refine sound.unpaged.step sound.notes fun height same => ?_
        have heeded := (permitted _ _ same).2
        simp [same, mode, Mode.heeds] at heeded
      · simp at normal

theorem setMeasure (sound : document.Sound) {measure : Measure} {value : Int} {after : Document}
    (set : document.setMeasure measure value = .ok after) : after.Sound := by
  unfold Document.setMeasure at set
  split at set
  · cases set
    exact sound.record rfl
  · rename_i heeded
    cases checked : measure.requirement.check value with
    | error invalid => simp [checked, Except.map] at set
    | ok number =>
        rw [checked] at set
        cases set
        obtain ⟨allowed, rfl⟩ := Requirement.check_eq_ok_iff.mp checked
        refine sound.perform fun other value same => ?_
        cases same
        refine ⟨allowed, ?_⟩
        cases mode : document.mode <;> cases measure <;> simp_all [Mode.heeds]

theorem setSwitch (sound : document.Sound) (switch : Switch) (on : Bool) :
    (document.setSwitch switch on).Sound :=
  sound.perform (by simp [Action.Permitted])

theorem beginNote (sound : document.Sound) : document.beginNote.Sound where
  main := sound.main.step (by simp)
  notes := sound.notes
  unpaged := sound.unpaged
  idle := by simp [Document.beginNote]
  numbered := sound.numbered.beginNote

/-- Whichever stream the paragraph ends in, the endnotes hold nothing after it. -/
theorem endNote (sound : document.Sound) : document.endNote.Sound := by
  have ended : (document.perform .endParagraph).Sound :=
    sound.perform (by simp [Action.Permitted])
  have idle : (document.perform .endParagraph).notes.composer.Idle := by
    cases mode : document.mode with
    | normal =>
        obtain ⟨journal, same⟩ := (Performs.perform document .endParagraph).normal mode
        rw [same]
        exact sound.idle mode
    | endnote =>
        obtain ⟨journal, same⟩ := (Performs.perform document .endParagraph).endnote mode
        rw [same]
        exact Composer.idle_endParagraph _
  have back : Document.Sound { document.perform .endParagraph with mode := .normal } :=
    ⟨ended.main, ended.notes, ended.unpaged, fun _ => idle, ended.numbered.of_eq rfl rfl⟩
  exact back.record rfl

theorem finish (sound : document.Sound) : document.finish.1.Sound := by
  have ended : (document.perform .endParagraph).Sound :=
    sound.perform (by simp [Action.Permitted])
  have taken (main : Stream) (kept : main.Sound) : Document.Sound
      { document.perform .endParagraph with
        main, notes := (document.perform .endParagraph).notes.take.1, finished := true } :=
    ⟨kept, ⟨ended.notes.width, ended.notes.height, ended.notes.paged⟩,
      ⟨ended.unpaged.unbounded, by simp [Stream.take, Pages.take, Unmarked]⟩, ended.idle,
      ended.numbered.of_eq rfl rfl⟩
  let texts := (document.perform .endParagraph).notes.take.2.map PageLine.render
  have paged := (Pages.height_addAll _ texts).trans ended.main.paged
  refine (taken ((document.perform .endParagraph).main.addLines texts).take.1
    ⟨ended.main.width, ended.main.height, paged⟩).record ?_
  simp [List.filterMap_map, Record.startedNote?]

theorem close (sound : document.Sound) : document.close.1.Sound := by
  unfold Document.close
  split
  · exact sound.endNote
  · split
    · exact sound
    · exact sound.finish

end Sound

end Document

/-! ## Reading -/

namespace Reading

/-- What each directive keeps is kept by a whole script, whether or not it shows a problem. -/
theorem sound_readWith {follow : Reading → Directive → Reading × Option Problem}
    (step : ∀ reading directive, reading.document.Sound →
      (follow reading directive).1.document.Sound)
    {reading : Reading} (sound : reading.document.Sound) (script : Script) :
    (reading.readWith follow script).1.document.Sound := by
  induction script generalizing reading with
  | nil => exact sound
  | cons entry rest ih =>
      cases entry with
      | error problem => exact sound
      | ok directive =>
          have kept := step reading directive sound
          rw [readWith]
          split
          · rename_i next followed
            rw [followed] at kept
            exact ih kept
          · rename_i next problem followed
            rwa [followed] at kept

theorem sound_perform {reading : Reading} (sound : reading.document.Sound) {action : Action}
    (fixed : ∀ change, action ≠ .change change) : (reading.perform action).document.Sound :=
  sound.perform fun _ _ same => absurd same (fixed _)

theorem sound_obey {reading : Reading} (sound : reading.document.Sound) (directive : Directive) :
    (reading.obey directive).1.document.Sound := by
  cases directive with
  | endWord => exact sound_perform sound (by simp)
  | endLine | endParagraph =>
      exact sound_perform (sound_perform sound (by simp)) (by simp)
  | write text =>
      rw [obey, write]
      split
      · exact sound_perform sound (by simp)
      · exact sound_perform sound (by simp)
  | measure measure value command argument =>
      rw [obey]
      split
      · rename_i document set
        exact sound.setMeasure set
      · exact sound
  | switch switch on => exact sound.setSwitch switch on
  | skip name => exact sound.record rfl
  | note command body => exact sound

theorem sound_writePending {reading : Reading} (sound : reading.document.Sound) :
    reading.writePending.document.Sound := by
  unfold writePending
  split
  · exact sound
  · exact sound_perform sound (by simp)

theorem sound_readNote {reading : Reading} (sound : reading.document.Sound) (body : List Token) :
    (reading.readNote body).1.document.Sound := by
  let opened : Reading :=
    { reading with
      document := reading.document.beginNote
      pending := some reading.document.nextNote }
  have begun : opened.document.Sound := sound.beginNote
  have read := sound_readWith (fun _ directive sound => sound_obey sound directive) begun
    (.ofTokens body)
  rw [readNote]
  split
  · rename_i followed
    rwa [followed] at read
  · rename_i followed
    rw [followed] at read
    exact (sound_writePending read).endNote

theorem sound_follow {reading : Reading} (sound : reading.document.Sound) (directive : Directive) :
    (reading.follow directive).1.document.Sound := by
  unfold follow
  split
  · split
    · exact sound_readNote sound _
    · exact sound_obey sound _
  · exact sound_obey sound directive

theorem sound_read {reading : Reading} (sound : reading.document.Sound) (script : Script) :
    (reading.read script).1.document.Sound :=
  sound_readWith (fun _ directive sound => sound_follow sound directive) sound script

end Reading

/-! ## Sessions -/

namespace Session

variable {σ : Type} [Sink σ]

/-- What a session can be asked for: an action, or to read a source, from its start or from where
an earlier problem was. -/
inductive Request where
  | act (action : Action)
  | read (reader : Reader)

/-- Do what is requested, whatever comes of it. -/
def respond (session : Session σ) : Request → Session σ
  | .act action => (session.perform action).1
  | .read reader => (session.read reader).1

/-- Do what is requested, one after the other. -/
def serve (session : Session σ) (requests : List Request) : Session σ :=
  requests.foldl respond session

theorem sound_perform {session : Session σ} (sound : session.document.Sound) (action : Action) :
    (session.perform action).1.document.Sound := by
  cases action with
  | addText | endWord | endLine | endParagraph =>
      exact sound.perform (by simp [Composer.Action.Permitted])
  | measure measure value =>
      rw [perform]
      split
      · rename_i document set
        exact sound.setMeasure set
      · exact sound
  | switch switch on => exact sound.setSwitch switch on
  | beginNote => exact sound.beginNote
  | close => exact sound.close

theorem sound_respond {session : Session σ} (sound : session.document.Sound) (request : Request) :
    (session.respond request).document.Sound := by
  cases request with
  | act action => exact sound_perform sound action
  | read reader =>
      let opened : Reading := ⟨session.document, none, reader.warnings⟩
      have read : (opened.read reader.rest).1.document.Sound := Reading.sound_read sound _
      simp only [respond, Session.read]
      split
      · rename_i followed
        rwa [followed] at read
      · rename_i followed
        rw [followed] at read
        exact read.close

theorem sound_requests {session : Session σ} (sound : session.document.Sound)
    (requests : List Request) : (session.serve requests).document.Sound := by
  induction requests generalizing session with
  | nil => exact sound
  | cons request rest ih => exact ih (sound_respond sound request)

/-- An endnote starts when that is asked for, and at no other action. -/
theorem length_begun_perform (session : Session σ) (action : Action) :
    (session.perform action).1.document.begun.length =
      session.document.begun.length + [action].count .beginNote := by
  cases action with
  | addText | endWord | endLine | endParagraph =>
      exact congrArg List.length (session.document.begun_perform _)
  | measure measure value =>
      rw [perform]
      split
      · rename_i document set
        exact congrArg List.length (Document.begun_setMeasure set)
      · rfl
  | switch switch on => exact congrArg List.length (session.document.begun_perform _)
  | beginNote =>
      rw [perform, Document.begun_beginNote, List.length_append]
      rfl
  | close => exact congrArg List.length session.document.begun_close

theorem length_begun_run (session : Session σ) (actions : List Action) :
    (session.run actions).document.begun.length =
      session.document.begun.length + actions.count .beginNote := by
  induction actions generalizing session with
  | nil => rfl
  | cons action rest ih =>
      rw [run_cons, ih, length_begun_perform, Nat.add_assoc, ← List.count_append,
        List.singleton_append]

/-- **Documents stay sound.** Whatever is requested of a session that starts with valid presets, and
whether or not it comes to anything, the document is sound: its streams keep their bounds, the pages
have the height that the settings say, endnotes are not paged on their own and leave nothing in
hand, and they have been numbered from one. Each time that an endnote is asked for one more is
numbered, and the text that labels it has the next number. -/
theorem sound_serve {presets : Presets} (valid : presets.Valid) (sink : σ)
    (requests : List Request) :
    let session := (new presets sink).serve requests
    session.document.Sound ∧
      (∀ actions, (session.run actions).document.begun.length =
        session.document.begun.length + actions.count .beginNote) ∧
      (session.perform .beginNote).2 =
        .label (Document.noteLabel (1 + session.document.begun.length)) := by
  intro session
  have sound : session.document.Sound := sound_requests (Document.sound_new valid) requests
  exact ⟨sound, session.length_begun_run, by rw [perform, sound.numbered.next]⟩

/-- After an endnote that shows a problem, one that is asked for inside it and a width that is not
allowed, the third endnote comes next. -/
theorem sound_serve_of_unfinished_note :
    let source := "a\\endnote\x7b\\textwidth\x7b9\x7db \\endnote\x7bc\x7d\x7d".toList
    let session := (new .default (Collector.new none)).serve
      [.read (.new source), .act .beginNote, .act (.measure .textWidth 0)]
    session.document.mode = .endnote ∧ session.document.begun = [1, 2] ∧
      session.document.Sound := by
  intro source session
  have valid : Presets.default.Valid := Presets.invalid?_eq_none_iff.mp rfl
  exact ⟨by decide +kernel, by decide +kernel, (sound_serve valid _ _).1⟩

end Session

end Galley
