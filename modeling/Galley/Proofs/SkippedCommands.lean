import Galley.Formatting
import Galley.Proofs.ReadStreams

/-! # Documents without their unknown commands

A command of unknown name does nothing but warn. When the tokens of unknown commands are left out of
a document and of its endnotes, each directive that is left has the same effect
(`Galley.Reading.follow_unwarned`), so the document is delivered in the same way and with the same
problem, without warnings (`Galley.deliverScript_ofKnown`).
-/

namespace Galley

/-! ## Names that no command has -/

/-- The name of a command token, if none of the known commands has this name. -/
def Token.unknownName? (token : Token) : Option Piece :=
  match token.lexeme with
  | .command name _ =>
      if name ∈ Command.all.map fun command => command.name.toList then none
      else some (namePiece token.start name)
  | _ => none

/-- Whether a token is anything but an unknown command. -/
def Token.isKnown (token : Token) : Bool :=
  token.unknownName?.isNone

theorem Command.ofName?_eq_none_iff {name : List Char} :
    ofName? name = none ↔ name ∉ all.map fun command => command.name.toList := by
  rw [ofName?, List.find?_eq_none]
  simp

namespace Token

theorem commandDirective_ne_skip (command : Piece) (argument : Option Piece) (known : Command)
    (name : Piece) : commandDirective command argument known ≠ .ok (.skip name) := by
  unfold commandDirective
  (repeat' split) <;> simp

/-- A token asks to be passed over exactly if it is an unknown command. -/
theorem directive_eq_skip_iff {token : Token} {name : Piece} :
    token.directive = .ok (.skip name) ↔ token.unknownName? = some name := by
  obtain ⟨start, unit⟩ := token
  cases unit with
  | command text argument =>
      cases named : Command.ofName? text with
      | none =>
          have unlisted := Command.ofName?_eq_none_iff.mp named
          simp only [directive, unknownName?, named, if_neg unlisted, Except.ok.injEq,
            Directive.skip.injEq, Option.some.injEq]
      | some known =>
          have listed : text ∈ Command.all.map fun command => command.name.toList :=
            List.mem_map.mpr
              ⟨known, known.mem_all, (Command.ofName?_eq_some_iff.mp named).symm⟩
          simp only [directive, unknownName?, named, if_pos listed, commandDirective_ne_skip,
            reduceCtorEq]
  | _ => simp [directive, unknownName?]

end Token

/-! ## Scripts without unknown commands -/

/-- The directive with the unknown commands left out of the endnote that it adds. -/
def Directive.keepKnown : Directive → Directive
  | .note command body => .note command (body.filter Token.isKnown)
  | directive => directive

/-- What tokens ask for when the unknown commands among them and in their endnotes are left out. -/
def Script.ofKnown (tokens : List Token) : Script :=
  (tokens.filter Token.isKnown).map fun token => token.directive.map Directive.keepKnown

namespace Document

/-- A document with a journal that says nothing of unknown commands. -/
def unwarned (document : Document) : Document :=
  { document with journal := document.journal.filter fun record => !record.isWarning }

theorem unwarned_new (presets : Presets) : (Document.new presets).unwarned = .new presets := by
  simp [unwarned, new]

theorem unwarned_record (document : Document) {records : List Record}
    (calm : ∀ record ∈ records, record.isWarning = false) :
    (document.record records).unwarned = document.unwarned.record records := by
  have kept : (document.journal ++ records).filter (fun record => !record.isWarning) =
      document.journal.filter (fun record => !record.isWarning) ++ records := by
    apply Array.toList_inj.mp
    rw [Array.toList_appendList, Array.toList_filter, Array.toList_appendList, List.filter_append,
      Array.toList_filter]
    congr 1
    exact List.filter_eq_self.mpr fun record member => by rw [calm record member, Bool.not_false]
  rw [record, unwarned, kept]
  rfl

theorem unwarned_setActive (document : Document) (stream : Stream) :
    (document.setActive stream).unwarned = document.unwarned.setActive stream := by
  unfold setActive
  cases mode : document.mode <;> simp [unwarned, mode]

theorem unwarned_perform (document : Document) (action : Composer.Action) :
    (document.perform action).unwarned = document.unwarned.perform action := by
  have calm : ∀ record ∈ (document.active.breaks action).map Record.pageBreak,
      record.isWarning = false := by simp [Record.isWarning]
  rw [perform, unwarned_record _ calm, unwarned_setActive]
  rfl

theorem setMeasure_unwarned (document : Document) (kind : Measure) (value : Int) :
    document.unwarned.setMeasure kind value =
      (document.setMeasure kind value).map unwarned := by
  have sameMode : document.unwarned.mode = document.mode := rfl
  rw [setMeasure, setMeasure, sameMode]
  split
  · exact congrArg Except.ok (document.unwarned_record (by simp [Record.isWarning])).symm
  · cases kind.requirement.check value with
    | error invalid => rfl
    | ok number => exact congrArg Except.ok (document.unwarned_perform _).symm

theorem unwarned_beginNote (document : Document) :
    document.beginNote.unwarned = document.unwarned.beginNote := by
  simp [beginNote, unwarned, Record.isWarning]

theorem unwarned_endNote (document : Document) :
    document.endNote.unwarned = document.unwarned.endNote := by
  rw [endNote, unwarned_record _ (by simp [Record.isWarning]), endNote, ← unwarned_perform]
  rfl

theorem finish_unwarned (document : Document) :
    document.unwarned.finish = Prod.map unwarned id document.finish := by
  rw [finish, finish, ← unwarned_perform]
  refine Prod.ext (Eq.symm ?_) rfl
  apply unwarned_record
  intro record member
  rcases List.mem_append.mp member with started | last
  · obtain ⟨line, -, rfl⟩ := List.mem_map.mp started
    rfl
  · obtain rfl := List.mem_singleton.mp last
    rfl

theorem close_unwarned (document : Document) :
    document.unwarned.close = Prod.map unwarned id document.close := by
  have sameMode : document.unwarned.mode = document.mode := rfl
  have sameEnd : document.unwarned.finished = document.finished := rfl
  rw [close, close, sameMode, sameEnd]
  cases document.mode with
  | endnote => exact Prod.ext document.unwarned_endNote.symm rfl
  | normal =>
      cases document.finished with
      | true => rfl
      | false => exact document.finish_unwarned

end Document

namespace Reading

/-- A reading without its warnings and without what the journal says of them. -/
def unwarned (reading : Reading) : Reading :=
  { reading with document := reading.document.unwarned, warnings := #[] }

theorem unwarned_perform (reading : Reading) (action : Composer.Action) :
    (reading.perform action).unwarned = reading.unwarned.perform action := by
  rw [perform, unwarned, Document.unwarned_perform]
  rfl

theorem unwarned_write (reading : Reading) (text : List Char) :
    (reading.write text).unwarned = reading.unwarned.write text := by
  obtain ⟨document, pending, warnings⟩ := reading
  cases pending <;> exact unwarned_perform _ _

theorem unwarned_writePending (reading : Reading) :
    reading.writePending.unwarned = reading.unwarned.writePending := by
  obtain ⟨document, pending, warnings⟩ := reading
  cases pending with
  | none => rfl
  | some number => exact unwarned_perform _ _

/-- Passing over an unknown command leaves nothing but its warning behind. -/
theorem unwarned_skip (reading : Reading) (name : Piece) :
    (reading.skip name).unwarned = reading.unwarned := by
  simp [skip, unwarned, Document.unwarned, Document.record, Record.isWarning]

/-- Every other directive has the same effect, whatever was warned of before. -/
theorem obey_unwarned (reading : Reading) {directive : Directive}
    (known : ∀ name, directive ≠ .skip name) :
    reading.unwarned.obey directive = Prod.map unwarned id (reading.obey directive) := by
  cases directive with
  | endWord => exact Prod.ext (reading.unwarned_perform _).symm rfl
  | endLine | endParagraph =>
      simp only [obey, ← unwarned_perform]
      rfl
  | write text => exact Prod.ext (reading.unwarned_write text).symm rfl
  | measure kind value command argument =>
      have set : reading.unwarned.document.setMeasure kind value =
          (reading.document.setMeasure kind value).map Document.unwarned :=
        reading.document.setMeasure_unwarned kind value
      rw [obey, obey, set]
      cases reading.document.setMeasure kind value <;> rfl
  | switch kind on => exact Prod.ext (reading.unwarned_perform _).symm rfl
  | note command body => rfl
  | skip name => exact absurd rfl (known name)

/-- If each directive that is kept has its effect, a script without its unknown commands has the
effect of the whole, up to the same problem. -/
theorem readWith_unwarned {keep : Directive → Directive}
    {follow : Reading → Directive → Reading × Option Problem}
    (kept : ∀ reading directive, (∀ name, directive ≠ .skip name) →
      follow reading.unwarned (keep directive) = Prod.map unwarned id (follow reading directive))
    (skipped : ∀ reading name, follow reading (.skip name) = (reading.skip name, none))
    (reading : Reading) (tokens : List Token) :
    ∃ later, reading.unwarned.readWith follow
        ((tokens.filter Token.isKnown).map fun token => token.directive.map keep) =
      Prod.map unwarned (Option.map fun stop => (stop.1, later))
        (reading.readWith follow (.ofTokens tokens)) := by
  induction tokens generalizing reading with
  | nil => exact ⟨[], rfl⟩
  | cons token rest ih =>
      rw [Script.ofTokens, List.map_cons, ← Script.ofTokens]
      cases unknown : token.unknownName? with
      | some name =>
          -- Only the whole script takes a step here, and nothing but a warning comes of it.
          have dropped : ¬token.isKnown = true := by simp [Token.isKnown, unknown]
          rw [Token.directive_eq_skip_iff.mpr unknown, readWith, skipped,
            List.filter_cons_of_neg dropped, ← unwarned_skip reading name]
          exact ih _
      | none =>
          have known : token.isKnown = true := by simp [Token.isKnown, unknown]
          rw [List.filter_cons_of_pos known, List.map_cons]
          cases asked : token.directive with
          | error problem => exact ⟨_, rfl⟩
          | ok directive =>
              have plain : ∀ name, directive ≠ .skip name := by
                rintro name rfl
                simp [Token.directive_eq_skip_iff.mp asked] at unknown
              simp only [Except.map, readWith, kept _ _ plain]
              cases follow reading directive with
              | mk next found =>
                  cases found with
                  | some problem => exact ⟨_, rfl⟩
                  | none => exact ih next

/-- The body of an endnote has its effect without the unknown commands in it. -/
theorem readNote_unwarned (reading : Reading) (body : List Token) :
    reading.unwarned.readNote (body.filter Token.isKnown) =
      Prod.map unwarned id (reading.readNote body) := by
  let opened : Reading :=
    { reading with
      document := reading.document.beginNote
      pending := some reading.document.nextNote }
  have begun : opened.unwarned = { reading.unwarned with
      document := reading.unwarned.document.beginNote
      pending := some reading.unwarned.document.nextNote } :=
    congrArg (Reading.mk · _ _) reading.document.unwarned_beginNote
  -- No endnote stands in another, so the directives of a body are kept as they are.
  have directives : (fun token : Token => token.directive.map id) = Token.directive :=
    funext fun token => by cases token.directive <;> rfl
  obtain ⟨later, same⟩ := @readWith_unwarned id obey (fun reading _ => reading.obey_unwarned)
    (fun _ _ => rfl) opened body
  rw [directives, ← Script.ofTokens, begun] at same
  rw [readNote, readNote, same]
  cases opened.readWith obey (.ofTokens body) with
  | mk read stop =>
      cases stop with
      | some stop => rfl
      | none =>
          have ended : read.unwarned.writePending.document.endNote =
              read.writePending.document.endNote.unwarned := by
            rw [← unwarned_writePending, Document.unwarned_endNote]
            rfl
          exact congrArg (fun document => (Reading.mk document _ _, none)) ended

theorem follow_skip (reading : Reading) (name : Piece) :
    reading.follow (.skip name) = (reading.skip name, none) := rfl

/-- Every directive of the main text but one to pass over a command has the same effect without the
unknown commands in its endnote. -/
theorem follow_unwarned (reading : Reading) {directive : Directive}
    (known : ∀ name, directive ≠ .skip name) :
    reading.unwarned.follow directive.keepKnown =
      Prod.map unwarned id (reading.follow directive) := by
  rcases directive.note_or_plain with ⟨command, body, rfl⟩ | plain
  · have sameMode : reading.unwarned.document.mode = reading.document.mode := rfl
    rw [Directive.keepKnown, follow, follow, sameMode]
    cases reading.document.mode with
    | normal => exact reading.readNote_unwarned body
    | endnote => rfl
  · have same : directive.keepKnown = directive := by
      cases directive with
      | note command body => exact absurd rfl (plain command body)
      | _ => rfl
    rw [same, follow_of_plain _ plain, follow_of_plain _ plain, obey_unwarned _ known]

/-- **A text is read in the same way without its unknown commands.** -/
theorem read_unwarned (reading : Reading) (tokens : List Token) :
    ∃ later, reading.unwarned.read (.ofKnown tokens) =
      Prod.map unwarned (Option.map fun stop => (stop.1, later))
        (reading.read (.ofTokens tokens)) :=
  readWith_unwarned (fun reading _ => reading.follow_unwarned) follow_skip reading tokens

end Reading

/-! ## Formatting a script -/

variable {σ : Type} [Sink σ]

/-- Deliver the lines of a script to a sink. -/
def deliverScript (presets : Presets) (script : Script) (sink : σ) : σ × Report Unit :=
  match presets.invalid? with
  | some invalid => (sink, ⟨.error (.presets invalid), #[], #[]⟩)
  | none =>
      let (session, reader, outcome) := (Session.new presets sink).read ⟨script, #[]⟩
      (session.sink, ⟨outcome, reader.warnings, session.document.journal⟩)

/-- The lines of a script, each with its page mark if it has one. -/
def formatScript (presets : Presets) (script : Script) : Report (List (List Char)) :=
  let delivered := deliverScript presets script (Collector.new none)
  { delivered.2 with
    outcome := delivered.2.outcome.map fun _ => delivered.1.lines.toList }

/-- Formatting a source is formatting what its tokens ask for. -/
theorem deliverScript_ofTokens (presets : Presets) (source : List Char) (sink : σ) :
    deliverScript presets (.ofTokens (tokens source)) sink = deliver presets source sink := rfl

/-- A report without its warnings and without what its journal says of them. -/
def Report.unwarned {α : Type} (report : Report α) : Report α :=
  { report with
    warnings := #[]
    journal := report.journal.filter fun record => !record.isWarning }

/-- **Unknown commands do nothing but warn.** A document without them is delivered in the same way
and with the same problem. -/
theorem deliverScript_ofKnown (presets : Presets) (source : List Char) (sink : σ) :
    deliverScript presets (.ofKnown (tokens source)) sink =
      Prod.map id Report.unwarned (deliver presets source sink) := by
  rw [← deliverScript_ofTokens, deliverScript, deliverScript]
  cases presets.invalid? with
  | some invalid => rfl
  | none =>
      let opened : Reading := ⟨.new presets, none, #[]⟩
      have fresh : opened.unwarned = opened :=
        congrArg (Reading.mk · none #[]) (Document.unwarned_new presets)
      obtain ⟨later, same⟩ := opened.read_unwarned (tokens source)
      rw [fresh] at same
      simp only [Session.read, Session.new]
      rw [same]
      cases opened.read (.ofTokens (tokens source)) with
      | mk reading stop =>
          cases stop with
          | some stop => rfl
          | none =>
              have closed : reading.unwarned.document.close =
                  Prod.map Document.unwarned id reading.document.close :=
                reading.document.close_unwarned
              simp only [Prod.map_apply, Option.map_none, Session.close, closed]
              rfl

theorem formatScript_ofKnown (presets : Presets) (source : List Char) :
    formatScript presets (.ofKnown (tokens source)) = (format presets source).unwarned := by
  rw [formatScript, deliverScript_ofKnown]
  rfl

end Galley
