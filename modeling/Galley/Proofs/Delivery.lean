import Galley.Proofs.ReadStreams
import Galley.Document.Session

/-! # Lines are delivered once

Whatever is asked of a session, its sink receives nothing until the main text is closed for the
first time. Then all lines that the document has at that moment are written in order, up to the
first that the sink refuses, and nothing is written ever after. Main statement:
`Galley.Session.delivers_once`.
-/

namespace Galley

variable {σ : Type} [Sink σ]

/-! ## What a sink accepts -/

namespace Sink

/-- What a sink has accepted of lines that are written to it in order: all of them, or those before
the first one that it refuses. -/
inductive Received :
    (sink : σ) → (lines accepted : List (List Char)) → (after : σ × Option String) → Prop
  | all (sink : σ) : Received sink [] [] (sink, none)
  | refused {sink after : σ} {line : List Char} {reason : String} (rest : List (List Char))
      (failed : write sink line = (after, some reason)) :
      Received sink (line :: rest) [] (after, some reason)
  | accepted {sink next : σ} {line : List Char} {rest accepted : List (List Char)}
      {after : σ × Option String} (written : write sink line = (next, none))
      (later : Received next rest accepted after) :
      Received sink (line :: rest) (line :: accepted) after

theorem received_writeAll (sink : σ) (lines : List (List Char)) :
    ∃ accepted, Received sink lines accepted (writeAll sink lines) := by
  induction lines generalizing sink with
  | nil => exact ⟨[], .all sink⟩
  | cons line rest ih =>
      rw [writeAll]
      split
      · rename_i next written
        obtain ⟨accepted, later⟩ := ih next
        exact ⟨line :: accepted, .accepted written later⟩
      · rename_i failed
        exact ⟨[], .refused rest failed⟩

namespace Received

variable {sink : σ} {lines accepted : List (List Char)} {after : σ × Option String}

theorem isPrefix (received : Received sink lines accepted after) : accepted <+: lines := by
  induction received with
  | all => exact List.prefix_refl _
  | refused => exact List.nil_prefix
  | accepted written later ih => exact List.prefix_cons_inj _ |>.mpr ih

/-- All lines are accepted exactly if no write fails. -/
theorem eq_iff (received : Received sink lines accepted after) :
    accepted = lines ↔ after.2 = none := by
  induction received with
  | all => simp
  | refused => simp
  | accepted written later ih => rw [← ih, List.cons.injEq, eq_self, true_and]

end Received

end Sink

/-! ## Closing a document -/

namespace Document

/-- The lines of a document if it is finished now: those of the main text, whose last paragraph
ends, and those of the endnotes on the pages behind them. -/
def allLines (document : Document) : List (List Char) :=
  let main := document.main.step .endParagraph
  main.pages.lines ++ (main.pages.laid document.notes.pages.lines).map PageLine.render

theorem Performs.finished_eq {document after : Document} {actions : List Composer.Action}
    (performs : document.Performs actions after) : after.finished = document.finished := by
  obtain ⟨journal, rfl⟩ := performs
  unfold setActive
  split <;> rfl

/-- The first time that the main text is closed, all lines are handed out. -/
theorem close_of_normal {document : Document} (normal : document.mode = .normal)
    (unfinished : document.finished = false) :
    document.close.2.map PageLine.render = document.allLines ∧
      document.close.1.finished = true := by
  have closed : document.close = document.finish := by
    simp only [close, normal, unfinished, Bool.false_eq_true, ↓reduceIte]
  obtain ⟨journal, ended⟩ := (Performs.perform document .endParagraph).normal normal
  rw [closed, finish, ended]
  exact ⟨Pages.lines_addAll _ _, rfl⟩

/-- Closing an endnote hands nothing out, and neither does closing a finished document. -/
theorem close_of_silent {document : Document}
    (silent : document.mode = .endnote ∨ document.finished = true) :
    document.close.2 = [] ∧ document.close.1.finished = document.finished := by
  have ended : document.endNote.finished = document.finished :=
    (Performs.perform document .endParagraph).finished_eq
  cases mode : document.mode with
  | endnote =>
      simp only [close, mode]
      exact ⟨trivial, ended⟩
  | normal =>
      have finished : document.finished = true := silent.resolve_left (by simp [mode])
      simp [close, mode, finished]

end Document

/-! ## Sessions -/

namespace Session

/-- Perform actions in order. -/
def run (session : Session σ) (actions : List Action) : Session σ :=
  actions.foldl (fun session action => (session.perform action).1) session

@[simp] theorem run_cons (session : Session σ) (action : Action) (rest : List Action) :
    session.run (action :: rest) = (session.perform action).1.run rest := rfl

theorem run_append (session : Session σ) (first second : List Action) :
    session.run (first ++ second) = (session.run first).run second :=
  List.foldl_append

/-- No action but the closing of an unfinished main text reaches the sink. -/
theorem perform_silent {session : Session σ} {action : Action}
    (silent : action = .close →
      session.document.mode = .endnote ∨ session.document.finished = true) :
    (session.perform action).1.sink = session.sink ∧
      (session.perform action).1.document.finished = session.document.finished := by
  cases action with
  | close =>
      obtain ⟨nothing, finished⟩ := Document.close_of_silent (silent rfl)
      simp only [perform, Session.close, nothing]
      exact ⟨rfl, finished⟩
  | measure kind value =>
      rw [perform]
      split
      · rename_i document set
        exact ⟨rfl, (Document.performs_setMeasure set).finished_eq⟩
      · exact ⟨rfl, rfl⟩
  | beginNote => exact ⟨rfl, rfl⟩
  | _ => exact ⟨rfl, (Document.Performs.perform session.document _).finished_eq⟩

/-- Once the document is finished, nothing reaches the sink. -/
theorem sink_run_of_finished {session : Session σ} (finished : session.document.finished = true)
    (actions : List Action) : (session.run actions).sink = session.sink := by
  induction actions generalizing session with
  | nil => rfl
  | cons action rest ih =>
      obtain ⟨sink, kept⟩ := @perform_silent _ _ session action fun _ => Or.inr finished
      rw [run_cons, ih (kept.trans finished), sink]

/-- What closing an unfinished main text does: the sink receives all lines, and the response says
whether it has accepted them. -/
theorem perform_close {session : Session σ} (normal : session.document.mode = .normal)
    (unfinished : session.document.finished = false) :
    ∃ accepted outcome,
      Sink.Received session.sink session.document.allLines accepted
        ((session.perform .close).1.sink, outcome) ∧
      (session.perform .close).2 = (outcome.map Response.failed).getD .done ∧
      (session.perform .close).1.document.finished = true := by
  obtain ⟨lines, finished⟩ := Document.close_of_normal normal unfinished
  obtain ⟨accepted, received⟩ := Sink.received_writeAll session.sink session.document.allLines
  refine ⟨accepted, (Sink.writeAll session.sink session.document.allLines).2, ?_, ?_, finished⟩
  · simp only [perform, Session.close, lines]
    exact received
  · simp only [perform, Session.close, lines]

/-- Each time that these actions close something, it is an endnote. -/
def KeepsOpen (session : Session σ) (actions : List Action) : Prop :=
  ∀ before after, actions = before ++ .close :: after →
    (session.run before).document.mode = .endnote

theorem KeepsOpen.cons_iff {session : Session σ} {action : Action} {rest : List Action} :
    session.KeepsOpen (action :: rest) ↔
      (action = .close → session.document.mode = .endnote) ∧
        (session.perform action).1.KeepsOpen rest := by
  constructor
  · intro keeps
    refine ⟨?_, fun before after split => ?_⟩
    · rintro rfl
      exact keeps [] rest rfl
    · exact keeps (action :: before) after (by rw [split, List.cons_append])
  · rintro ⟨first, later⟩ before after split
    cases before with
    | nil =>
        obtain ⟨rfl, -⟩ := List.cons.inj split
        exact first rfl
    | cons other before =>
        obtain ⟨rfl, same⟩ := List.cons.inj split
        exact later before after same

/-- As long as the main text is not closed, nothing reaches the sink. -/
theorem run_of_keepsOpen {session : Session σ} {actions : List Action}
    (keeps : session.KeepsOpen actions) :
    (session.run actions).sink = session.sink ∧
      (session.run actions).document.finished = session.document.finished := by
  induction actions generalizing session with
  | nil => exact ⟨rfl, rfl⟩
  | cons action rest ih =>
      obtain ⟨first, later⟩ := KeepsOpen.cons_iff.mp keeps
      obtain ⟨sink, finished⟩ := perform_silent fun closes => Or.inl (first closes)
      obtain ⟨sinkAfter, finishedAfter⟩ := ih later
      exact ⟨sinkAfter.trans sink, finishedAfter.trans finished⟩

/-- Actions close nothing but endnotes, or there is a first one among them that closes the main
text. -/
theorem keepsOpen_or_exists_first (session : Session σ) (actions : List Action) :
    session.KeepsOpen actions ∨ ∃ before after, actions = before ++ .close :: after ∧
      session.KeepsOpen before ∧ (session.run before).document.mode = .normal := by
  induction actions generalizing session with
  | nil => exact Or.inl (by simp [KeepsOpen])
  | cons action rest ih =>
      by_cases closes : action = .close ∧ session.document.mode = .normal
      · obtain ⟨rfl, normal⟩ := closes
        exact Or.inr ⟨[], rest, rfl, by simp [KeepsOpen], normal⟩
      · have first : action = .close → session.document.mode = .endnote := by
          intro close
          cases mode : session.document.mode with
          | normal => exact absurd ⟨close, mode⟩ closes
          | endnote => rfl
        rcases ih (session.perform action).1 with later | ⟨before, after, rfl, later, normal⟩
        · exact Or.inl (KeepsOpen.cons_iff.mpr ⟨first, later⟩)
        · exact Or.inr ⟨action :: before, after, rfl, KeepsOpen.cons_iff.mpr ⟨first, later⟩, normal⟩

/-- What a run of actions does to the sink of a session. Until the main text is closed for the first
time it does nothing. That action writes all lines that the document has then, up to the first that
the sink refuses, and later actions write nothing. So what the sink has accepted at any time is a
part of these lines from their start, and it is all of them exactly if that action was done without
a failure. -/
structure DeliversOnce (session : Session σ) (actions : List Action) : Prop where
  silent : session.KeepsOpen actions → (session.run actions).sink = session.sink
  first : ¬session.KeepsOpen actions → ∃ before after, actions = before ++ .close :: after ∧
    session.KeepsOpen before ∧ (session.run before).document.mode = .normal
  closing : ∀ before after, actions = before ++ .close :: after → session.KeepsOpen before →
    (session.run before).document.mode = .normal →
      ∃ accepted outcome,
        Sink.Received session.sink (session.run before).document.allLines accepted
          (((session.run before).perform .close).1.sink, outcome) ∧
        (session.run actions).sink = ((session.run before).perform .close).1.sink ∧
        ((session.run before).perform .close).2 = (outcome.map Response.failed).getD .done ∧
        accepted <+: (session.run before).document.allLines ∧
        (accepted = (session.run before).document.allLines ↔
          ((session.run before).perform .close).2 = .done)

/-- **Lines are delivered once.** Whatever presets a session starts with, whatever is asked of it
and whenever its sink fails, the lines of the document are written at most once and in order. -/
theorem delivers_once (presets : Presets) (sink : σ) (actions : List Action) :
    DeliversOnce (new presets sink) actions where
  silent := fun keeps => (run_of_keepsOpen keeps).1
  first := (keepsOpen_or_exists_first _ _).resolve_left
  closing := by
    rintro before after rfl keeps normal
    obtain ⟨untouched, unfinished⟩ := run_of_keepsOpen keeps
    obtain ⟨accepted, outcome, received, response, finished⟩ :=
      perform_close normal (unfinished.trans rfl)
    rw [untouched] at received
    refine ⟨accepted, outcome, received, ?_, response, received.isPrefix, ?_⟩
    · rw [run_append, run_cons, sink_run_of_finished finished]
    · rw [received.eq_iff, response]
      cases outcome <;> simp

end Session

end Galley
