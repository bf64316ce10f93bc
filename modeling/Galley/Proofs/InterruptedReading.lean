import Galley.Proofs.FirstProblem
import Galley.Document.Session

/-! # Reading that a problem interrupts

A session that reads from the main text stops behind the token that shows the first problem. If that
token stands in the main text, the session stays in normal mode and goes on as if the token were not
there. If it is an endnote whose body shows the problem, the endnote is never ended: the session is
left in endnote mode, and what is read next is added to the endnotes. Main statement:
`Galley.Session.stops_read`.
-/

namespace Galley

open Composer (Action)

namespace Reading

/-! ## Where reading stops -/

section ReadWith

variable {follow : Reading → Directive → Reading × Option Problem}

theorem readWith_cons {reading next : Reading} {directive : Directive}
    (followed : follow reading directive = (next, none)) (rest : Script) :
    reading.readWith follow (.ok directive :: rest) = next.readWith follow rest := by
  rw [readWith, followed]

theorem readWith_cons_of_problem {reading next : Reading} {directive : Directive}
    {problem : Problem} (followed : follow reading directive = (next, some problem))
    (rest : Script) :
    reading.readWith follow (.ok directive :: rest) = (next, some (problem, rest)) := by
  rw [readWith, followed]

theorem readWith_append {reading mid : Reading} {first : Script}
    (read : reading.readWith follow first = (mid, none)) (second : Script) :
    reading.readWith follow (first ++ second) = mid.readWith follow second := by
  induction first generalizing reading with
  | nil =>
      cases read
      rfl
  | cons entry first ih =>
      cases entry with
      | error problem => simp [readWith] at read
      | ok directive =>
          cases followed : follow reading directive with
          | mk next found =>
              cases found with
              | some problem => simp [readWith_cons_of_problem followed] at read
              | none =>
                  rw [readWith_cons followed] at read
                  rw [List.cons_append, readWith_cons followed, ih read]

/-- A script is read to its end, or up to an entry that is a problem or whose directive shows
one. -/
theorem readWith_cases (follow : Reading → Directive → Reading × Option Problem)
    (reading : Reading) (script : Script) :
    (∃ next, reading.readWith follow script = (next, none)) ∨
      ∃ before entry rest mid next problem, script = before ++ entry :: rest ∧
        reading.readWith follow before = (mid, none) ∧
        reading.readWith follow script = (next, some (problem, rest)) ∧
        (entry = .error problem ∧ next = mid ∨
          ∃ directive, entry = .ok directive ∧ follow mid directive = (next, some problem)) := by
  induction script generalizing reading with
  | nil => exact Or.inl ⟨reading, rfl⟩
  | cons entry script ih =>
      cases entry with
      | error problem =>
          exact Or.inr ⟨[], _, script, reading, reading, problem, rfl, rfl, rfl, Or.inl ⟨rfl, rfl⟩⟩
      | ok directive =>
          cases followed : follow reading directive with
          | mk next found =>
              cases found with
              | some problem =>
                  exact Or.inr ⟨[], _, script, reading, next, problem, rfl, rfl,
                    readWith_cons_of_problem followed script, Or.inr ⟨directive, rfl, followed⟩⟩
              | none =>
                  have step := readWith_cons followed
                  obtain ⟨last, read⟩ |
                    ⟨before, entry, rest, mid, last, problem, rfl, early, read, shown⟩ := ih next
                  · exact Or.inl ⟨last, (step script).trans read⟩
                  · exact Or.inr ⟨.ok directive :: before, entry, rest, mid, last, problem, rfl,
                      (step before).trans early, (step _).trans read, shown⟩

end ReadWith

/-- No label of an endnote is due behind tokens of the main text. -/
theorem pending_read {tokens : List Token} {reading next : Reading}
    (normal : reading.document.mode = .normal) (due : reading.pending = none)
    (read : reading.read (.ofTokens tokens) = (next, none)) : next.pending = none := by
  unfold Reading.read at read
  induction tokens generalizing reading with
  | nil =>
      cases read
      exact due
  | cons token tokens ih =>
      rw [Script.ofTokens, List.map_cons] at read
      cases asked : token.directive with
      | error problem => simp [asked, readWith] at read
      | ok directive =>
          rw [asked] at read
          cases followed : reading.follow directive with
          | mk mid found =>
              cases found with
              | some problem => simp [readWith_cons_of_problem followed] at read
              | none =>
                  rw [readWith_cons followed] at read
                  obtain ⟨pending, journal, first⟩ := readsTo_follow normal due asked followed
                  exact ih (by rw [first, normal]) pending read

/-! ## Modes -/

/-- A directive that shows a problem has no effect. -/
theorem obey_of_problem {reading next : Reading} {directive : Directive} {problem : Problem}
    (obeyed : reading.obey directive = (next, some problem)) : next = reading := by
  cases directive with
  | measure kind value command argument =>
      rw [obey] at obeyed
      split at obeyed
      · simp at obeyed
      · exact (congrArg Prod.fst obeyed).symm
  | note command body => exact (congrArg Prod.fst obeyed).symm
  | _ => simp [obey] at obeyed

/-- Inside an endnote nothing touches the main text. -/
theorem main_obey {reading : Reading} (inside : reading.document.mode = .endnote)
    (directive : Directive) :
    (reading.obey directive).1.document.main = reading.document.main ∧
      (reading.obey directive).1.document.mode = .endnote := by
  cases obeyed : reading.obey directive with
  | mk next found =>
      cases found with
      | some problem =>
          rw [obey_of_problem obeyed]
          exact ⟨rfl, inside⟩
      | none =>
          obtain ⟨performed, performs, -⟩ := performs_obey obeyed
          obtain ⟨journal, same⟩ := performs.endnote inside
          simp only [same]
          exact ⟨trivial, inside⟩

/-- What is read inside an endnote leaves the main text alone and does not end the endnote. -/
theorem main_readWith {follow : Reading → Directive → Reading × Option Problem}
    (obeys : ∀ reading : Reading, reading.document.mode = .endnote →
      ∀ directive, follow reading directive = reading.obey directive)
    {reading : Reading} (inside : reading.document.mode = .endnote) (script : Script) :
    (reading.readWith follow script).1.document.main = reading.document.main ∧
      (reading.readWith follow script).1.document.mode = .endnote := by
  induction script generalizing reading with
  | nil => exact ⟨rfl, inside⟩
  | cons entry rest ih =>
      cases entry with
      | error problem => exact ⟨rfl, inside⟩
      | ok directive =>
          have kept := main_obey inside directive
          rw [readWith, obeys reading inside]
          cases obeyed : reading.obey directive with
          | mk next found =>
              rw [obeyed] at kept
              cases found with
              | some problem => exact kept
              | none =>
                  obtain ⟨main, mode⟩ := ih kept.2
                  exact ⟨main.trans kept.1, mode⟩

theorem follow_inside {reading : Reading} (inside : reading.document.mode = .endnote)
    (directive : Directive) : reading.follow directive = reading.obey directive := by
  rcases directive.note_or_plain with ⟨command, body, rfl⟩ | plain
  · rw [follow, inside]
  · exact reading.follow_of_plain plain

/-- **One endnote.** Reading its body ends the endnote only if the body shows no problem. -/
theorem mode_readNote_eq (reading : Reading) (body : List Token) :
    (reading.readNote body).1.document.mode =
      if firstProblem? .endnote body = none then .normal else .endnote := by
  have shown := reading.problem_readNote body
  let opened : Reading :=
    { reading with
      document := reading.document.beginNote
      pending := some reading.document.nextNote }
  have kept := @main_readWith obey (fun _ _ _ => rfl) opened rfl (.ofTokens body)
  rw [← shown, readNote]
  split
  · rename_i problem _ read
    rw [read] at kept
    exact kept.2
  · rfl

/-- **One token.** The mode in which a token of the main text leaves the document. -/
theorem mode_follow {reading : Reading} (normal : reading.document.mode = .normal) {token : Token}
    {directive : Directive} (asked : token.directive = .ok directive) :
    (reading.follow directive).1.document.mode =
      if firstProblem? .endnote token.noteTokens = none then .normal else .endnote := by
  rcases directive.note_or_plain with ⟨command, body, rfl⟩ | plain
  · rw [follow_note normal, Token.noteTokens_of_note asked, mode_readNote_eq]
  · rw [reading.follow_of_plain plain, Token.noteTokens_of_plain asked plain, firstProblem?_nil,
      if_pos rfl]
    cases obeyed : reading.obey directive with
    | mk next found =>
        cases found with
        | some problem =>
            rw [obey_of_problem obeyed]
            exact normal
        | none => exact (mode_obey obeyed).trans normal

end Reading

/-! ## Sessions -/

/-- However a document is closed, the mode is normal after it. -/
theorem Document.mode_close (document : Document) : document.close.1.mode = .normal := by
  unfold Document.close
  split
  · rfl
  · rename_i normal
    split
    · exact normal
    · exact (Document.Performs.perform document .endParagraph).mode_eq.trans normal

namespace Session

variable {σ : Type} [Sink σ]

/-- A session goes on behind a script that it has read without a problem. -/
theorem read_append {session : Session σ} {warnings : Array Warning} {first : Script}
    {mid : Reading} (read : Reading.read ⟨session.document, none, warnings⟩ first = (mid, none))
    (due : mid.pending = none) (second : Script) :
    session.read ⟨first ++ second, warnings⟩ =
      Session.read ⟨mid.document, session.sink⟩ ⟨second, mid.warnings⟩ := by
  have same : (⟨mid.document, none, mid.warnings⟩ : Reading) = mid := by rw [← due]
  simp only [Session.read, same]
  rw [Reading.read, Reading.readWith_append read]
  rfl

/-- What a session reads inside an endnote leaves the main text and the sink as they are. -/
theorem read_inside {session : Session σ} (inside : session.document.mode = .endnote)
    (reader : Reader) :
    (session.read reader).1.document.main = session.document.main ∧
      (session.read reader).1.sink = session.sink := by
  have kept := @Reading.main_readWith Reading.follow
    (fun _ inside directive => Reading.follow_inside inside directive)
    ⟨session.document, none, reader.warnings⟩ inside reader.rest
  rw [← Reading.read] at kept
  rw [Session.read]
  split
  · rename_i read
    rw [read] at kept
    exact ⟨kept.1, rfl⟩
  · rename_i reading read
    rw [read] at kept
    obtain ⟨journal, same⟩ :=
      (Document.Performs.perform reading.document .endParagraph).endnote kept.2
    have ended : (Session.close ⟨reading.document, session.sink⟩) =
        (⟨reading.document.endNote, session.sink⟩, none) := by
      rw [Session.close, Document.close, kept.2]
      rfl
    rw [ended]
    refine ⟨?_, rfl⟩
    change (reading.document.perform .endParagraph).main = _
    rw [same]
    exact kept.1

/-- How a session in normal mode reads tokens. Without a problem it writes all of them and closes
the document in normal mode. Otherwise it stops behind the first token that shows a problem. If the
token itself violates a rule, the mode is normal, and to read on is to read all tokens but that one.
If the body of an endnote does, the mode is endnote, and to read on leaves the main text and the
sink as they are. -/
inductive Stops (session : Session σ) (warnings : Array Warning) :
    List Token → Session σ × Reader × Except Failure Unit → Prop
  | atEnd {tokens : List Token} {document : Document} {after : Session σ} {reader : Reader}
      {response : Except Failure Unit} (clean : firstProblem? .normal tokens = none)
      (written : session.document.ReadsTo (tokens.map Token.lexeme) document)
      (closed : after = (Session.close ⟨document, session.sink⟩).1)
      (mode : after.document.mode = .normal) (behind : reader.rest = []) :
      Stops session warnings tokens (after, reader, response)
  | atToken {before rest : List Token} {token : Token} {problem : Problem} {after : Session σ}
      {reader : Reader} (clean : firstProblem? .normal before = none)
      (shown : token.problem? .normal = some problem)
      (mode : after.document.mode = .normal) (behind : reader.rest = .ofTokens rest)
      (resumed : after.read reader = session.read ⟨.ofTokens (before ++ rest), warnings⟩) :
      Stops session warnings (before ++ token :: rest) (after, reader, .error (.document problem))
  | inNote {before rest : List Token} {token : Token} {problem : Problem} {after : Session σ}
      {reader : Reader} (clean : firstProblem? .normal before = none)
      (allowed : token.problem? .normal = none)
      (shown : firstProblem? .endnote token.noteTokens = some problem)
      (mode : after.document.mode = .endnote) (behind : reader.rest = .ofTokens rest)
      (main : (after.read reader).1.document.main = after.document.main)
      (sink : (after.read reader).1.sink = after.sink) :
      Stops session warnings (before ++ token :: rest) (after, reader, .error (.document problem))

/-- A session stops behind a token of the main text at which reading stops. -/
theorem stops_of_problem {session : Session σ} {warnings : Array Warning} {before : List Token}
    {mid next : Reading}
    (read : Reading.read ⟨session.document, none, warnings⟩ (.ofTokens before) = (mid, none))
    (clean : firstProblem? .normal before = none) (normal : mid.document.mode = .normal)
    (due : mid.pending = none) {token : Token} {problem : Problem}
    (shown : token.directive = .error problem ∧ next = mid ∨
      ∃ directive, token.directive = .ok directive ∧ mid.follow directive = (next, some problem))
    (rest : List Token) :
    session.Stops warnings (before ++ token :: rest)
      (⟨next.document, session.sink⟩, ⟨.ofTokens rest, next.warnings⟩,
        .error (.document problem)) := by
  have resumed : Session.read ⟨mid.document, session.sink⟩ ⟨.ofTokens rest, mid.warnings⟩ =
      session.read ⟨.ofTokens (before ++ rest), warnings⟩ := by
    rw [Script.ofTokens, Script.ofTokens, List.map_append]
    exact (read_append read due _).symm
  obtain ⟨asked, rfl⟩ | ⟨directive, asked, followed⟩ := shown
  · exact .atToken clean (Token.problem?_of_error asked _) normal rfl resumed
  rcases directive.note_or_plain with ⟨command, body, rfl⟩ | plain
  -- An endnote stands in the main text, so it is its body that shows the problem.
  · have mode := Reading.mode_follow normal asked
    have noted := mid.problem_readNote body
    rw [Reading.follow_note normal] at followed mode
    rw [followed] at noted mode
    rw [← Token.noteTokens_of_note asked] at noted
    rw [← noted, if_neg (Option.some_ne_none problem)] at mode
    have inside : Document.mode (Session.mk next.document session.sink).document = .endnote := mode
    obtain ⟨main, sink⟩ := read_inside inside ⟨.ofTokens rest, next.warnings⟩
    exact .inNote clean (Token.problem?_of_ok asked _) noted.symm mode rfl main sink
  · rw [mid.follow_of_plain plain] at followed
    have obeyed := mid.problem_obey directive (Or.inr plain)
    rw [followed, normal, ← Token.problem?_of_ok asked] at obeyed
    cases Reading.obey_of_problem followed
    exact .atToken clean obeyed.symm normal rfl resumed

/-- **Where a session stops** that reads tokens in normal mode, and what it does when it reads
on. -/
theorem stops_read {session : Session σ} (normal : session.document.mode = .normal)
    (tokens : List Token) (warnings : Array Warning) :
    session.Stops warnings tokens (session.read ⟨.ofTokens tokens, warnings⟩) := by
  let opened : Reading := ⟨session.document, none, warnings⟩
  obtain ⟨next, read⟩ | ⟨before, entry, rest, mid, next, problem, split, early, read, shown⟩ :=
    opened.readWith_cases Reading.follow (.ofTokens tokens)
  · change opened.read (.ofTokens tokens) = (next, none) at read
    have shown := @Reading.problem_read opened normal tokens
    rw [read] at shown
    have written := @Reading.readsTo_read _ opened _ normal rfl read
    rw [Session.read, read]
    exact .atEnd shown.symm written rfl (Document.mode_close _) rfl
  · obtain ⟨before, _, rfl, rfl, behind⟩ := List.map_eq_append_iff.mp split
    obtain ⟨token, rest, rfl, rfl, rfl⟩ := List.map_eq_cons_iff.mp behind
    change opened.read (.ofTokens before) = (mid, none) at early
    have clean := @Reading.problem_read opened normal before
    rw [early] at clean
    have mode : mid.document.mode = .normal := by
      obtain ⟨journal, same⟩ := @Reading.readsTo_read _ opened _ normal rfl early
      rw [same, normal]
    have due := @Reading.pending_read _ opened _ normal rfl early
    change opened.read (.ofTokens _) = _ at read
    rw [Session.read, read]
    exact stops_of_problem early clean.symm mode due shown rest

/-- The body of an endnote shows a problem, and a letter follows. -/
theorem stops_read_of_unfinished_note :
    let session := Session.new .default (Collector.new none)
    let source := "\\endnote\x7b\\indent\x7db".toList
    session.Stops #[] (tokens source) (session.read (.new source)) :=
  stops_read rfl _ _

/-- The command in the body has no argument, so reading ends at it and leaves the session in endnote
mode. -/
theorem mode_of_unfinished_note :
    let session := Session.new .default (Collector.new none)
    session.document.mode = .normal ∧
      (session.read (.new "\\endnote\x7b\\indent\x7d".toList)).1.document.mode = .endnote := by
  decide +kernel

end Session
end Galley
