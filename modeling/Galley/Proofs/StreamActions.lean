import Galley.Document.Reading

/-! # The actions that lexemes ask for

A document has two streams. What the lexemes of a source ask each of them to do depends on these
lexemes alone: the main text gets a reference in the place of each endnote
(`Galley.mainActions`), and the endnotes get the actions of their bodies with a label before the
first text (`Galley.notesActions`). The directive of a token asks for the same as its lexeme
(`Galley.Token.actions_of_directive`).
-/

namespace Galley

open Composer (Action)

/-- The actions that a known command with a given argument asks for. -/
def Command.actions (argument : Option (List Char)) : Command → List Action
  | .measure kind =>
      ((argument.bind readArgumentValue?).map fun value =>
        Action.change (.measure kind value.toNat)).toList
  | .switch kind on => [.change (.switch kind on)]
  | .endnote => []

namespace Lexeme

/-- The actions that a lexeme asks for. -/
def actions : Lexeme → List Action
  | .blank _ => [.finishWord]
  | .lineBreak _ => [.finishWord, .endLine]
  | .paragraphBreak _ _ _ => [.finishWord, .endParagraph]
  | .escaped char => [.addText [char]]
  | .text run => [.addText run]
  | .command name argument =>
      ((Command.ofName? name).map (Command.actions argument)).getD []
  | .unclosed _ _ | .stray _ => []

/-- The body of the endnote that a lexeme asks for. -/
def noteBody? : Lexeme → Option (List Char)
  | .command name argument => if Command.ofName? name = some .endnote then argument else none
  | _ => none

theorem noteBody?_endnote {name : List Char} (endnote : Command.ofName? name = some .endnote)
    (body : List Char) : (command name (some body)).noteBody? = some body :=
  if_pos endnote

theorem noteBody?_eq_some_iff {unit : Lexeme} {body : List Char} :
    unit.noteBody? = some body ↔ unit = .command Command.endnote.name.toList (some body) := by
  constructor
  · intro noted
    unfold noteBody? at noted
    split at noted
    · split at noted
      · rename_i endnote
        rw [Command.ofName?_eq_some_iff.mp endnote, noted]
      · simp at noted
    · simp at noted
  · rintro rfl
    exact noteBody?_endnote (Command.ofName?_name .endnote) body

end Lexeme

/-- The bodies of the endnotes among lexemes. -/
def noteBodies (units : List Lexeme) : List (List Char) :=
  units.filterMap Lexeme.noteBody?

/-- The actions of lexemes on the main text, where each endnote adds its reference to the word
being built. The next endnote has the given number. -/
def mainActions : (number : Nat) → List Lexeme → List Action
  | _, [] => []
  | number, unit :: rest =>
      match unit.noteBody? with
      | some _ => .addText (Document.noteMark number) :: mainActions (number + 1) rest
      | none => unit.actions ++ mainActions number rest

/-- Whether an action is performed in a mode: the height of pages is not set inside endnotes. -/
def Mode.heeds : Mode → Action → Bool
  | .endnote, .change (.measure .textHeight _) => false
  | _, _ => true

theorem Mode.filter_heeds (mode : Mode) {actions : List Action}
    (other : ∀ height, Action.change (.measure .textHeight height) ∉ actions) :
    actions.filter mode.heeds = actions := by
  refine List.filter_eq_self.mpr fun action member => ?_
  unfold heeds
  split
  · exact absurd member (other _)
  · rfl

/-- The label that is due is written before the first text, or alone at the end. -/
def labelled : (due : Option Nat) → List Action → List Action
  | none, actions => actions
  | some number, [] => [.addText (Document.noteMark number)]
  | some number, .addText text :: rest => .addText (Document.noteLabel number ++ text) :: rest
  | some number, action :: rest => action :: labelled (some number) rest

@[simp] theorem labelled_none (actions : List Action) : labelled none actions = actions := by
  cases actions <;> rfl

theorem labelled_addText (due : Option Nat) (text : List Char) (rest : List Action) :
    labelled due (.addText text :: rest) =
      .addText ((due.map Document.noteLabel).getD [] ++ text) :: rest := by
  cases due <;> rfl

/-- A label that is due waits until text is added. -/
theorem labelled_append {first : List Action} (quiet : ∀ text, Action.addText text ∉ first)
    (due : Option Nat) (second : List Action) :
    labelled due (first ++ second) = first ++ labelled due second := by
  cases due with
  | none => rw [labelled_none, labelled_none]
  | some number =>
      induction first with
      | nil => rfl
      | cons action first ih =>
          have later := ih fun text member => quiet text (List.mem_cons_of_mem _ member)
          cases action with
          | addText text => exact absurd List.mem_cons_self (quiet text)
          | _ => exact congrArg _ later

/-- The actions of lexemes inside an endnote, before the label is added. -/
def bodyActions (units : List Lexeme) : List Action :=
  (units.flatMap Lexeme.actions).filter Mode.endnote.heeds

theorem bodyActions_cons (unit : Lexeme) (units : List Lexeme) :
    bodyActions (unit :: units) = unit.actions.filter Mode.endnote.heeds ++ bodyActions units :=
  List.filter_append ..

/-- The actions of an endnote on the endnotes. -/
def noteActions (number : Nat) (body : List Char) : List Action :=
  labelled (some number) (bodyActions (lexemes body)) ++ [.endParagraph]

/-- The actions of consecutive endnotes, of which the first has the given number. -/
def notesActions : (number : Nat) → (bodies : List (List Char)) → List Action
  | _, [] => []
  | number, body :: rest => noteActions number body ++ notesActions (number + 1) rest

theorem Command.eq_change_of_mem_actions {command : Command} {argument : Option (List Char)}
    {action : Action} (member : action ∈ command.actions argument) :
    ∃ change, action = .change change := by
  cases command with
  | measure kind =>
      unfold actions at member
      cases value : argument.bind readArgumentValue? with
      | none => simp [value] at member
      | some value => simp_all
  | switch kind on => exact ⟨_, List.mem_singleton.mp member⟩
  | endnote => simp [actions] at member

theorem Lexeme.addWord_not_mem_actions (unit : Lexeme) (word : List Char) :
    Action.addWord word ∉ unit.actions := by
  cases unit with
  | command name argument =>
      cases named : Command.ofName? name with
      | none => simp [actions, named]
      | some known =>
          intro member
          simp only [actions, named, Option.map_some, Option.getD_some] at member
          obtain ⟨change, same⟩ := Command.eq_change_of_mem_actions member
          simp at same
  | _ => simp [actions]

theorem addWord_not_mem_mainActions (number : Nat) (units : List Lexeme) (word : List Char) :
    Action.addWord word ∉ mainActions number units := by
  induction units generalizing number with
  | nil => exact List.not_mem_nil
  | cons unit units ih =>
      unfold mainActions
      split
      · simp [ih]
      · simp [ih, unit.addWord_not_mem_actions word]

theorem mem_labelled {due : Option Nat} {actions : List Action} {action : Action}
    (member : action ∈ labelled due actions) :
    action ∈ actions ∨ ∃ text, action = .addText text := by
  cases due with
  | none => exact Or.inl (labelled_none actions ▸ member)
  | some number =>
      induction actions with
      | nil => exact Or.inr ⟨_, List.mem_singleton.mp member⟩
      | cons first rest ih =>
          cases first with
          | addText text =>
              rcases List.mem_cons.mp member with same | later
              · exact Or.inr ⟨_, same⟩
              · exact Or.inl (List.mem_cons_of_mem _ later)
          | _ =>
              rcases List.mem_cons.mp member with same | later
              · exact Or.inl (same ▸ List.mem_cons_self)
              · exact (ih later).imp_left (List.mem_cons_of_mem _)

/-- Endnotes neither add whole words nor set the height of pages. -/
theorem not_mem_notesActions {action : Action} (number : Nat) (bodies : List (List Char))
    (other : (∃ word, action = .addWord word) ∨
      ∃ height, action = .change (.measure .textHeight height)) :
    action ∉ notesActions number bodies := by
  have unlisted (units : List Lexeme) : action ∉ bodyActions units := by
    intro member
    obtain ⟨asked, heeded⟩ := List.mem_filter.mp member
    rcases other with ⟨word, rfl⟩ | ⟨height, rfl⟩
    · obtain ⟨unit, _, asked⟩ := List.mem_flatMap.mp asked
      exact unit.addWord_not_mem_actions word asked
    · simp [Mode.heeds] at heeded
  have unlabelled (number : Nat) (body : List Char) : action ∉ noteActions number body := by
    intro member
    rcases List.mem_append.mp member with member | member
    · rcases mem_labelled member with member | ⟨text, rfl⟩
      · exact unlisted _ member
      · simp at other
    · rw [List.mem_singleton.mp member] at other
      simp at other
  induction bodies generalizing number with
  | nil => exact List.not_mem_nil
  | cons body rest ih =>
      intro member
      rcases List.mem_append.mp member with member | member
      · exact unlabelled number body member
      · exact ih _ member

theorem noteBodies_append (first second : List Lexeme) :
    noteBodies (first ++ second) = noteBodies first ++ noteBodies second :=
  List.filterMap_append

theorem mainActions_append (number : Nat) (first second : List Lexeme) :
    mainActions number (first ++ second) =
      mainActions number first ++ mainActions (number + (noteBodies first).length) second := by
  induction first generalizing number with
  | nil => rfl
  | cons unit first ih =>
      cases noted : unit.noteBody? with
      | none => simp [mainActions, noteBodies, noted, ih]
      | some body =>
          simp only [mainActions, noteBodies, noted, ih, List.cons_append, List.filterMap_cons,
            List.length_cons]
          rw [Nat.add_right_comm, Nat.add_assoc]

theorem notesActions_append (number : Nat) (first second : List (List Char)) :
    notesActions number (first ++ second) =
      notesActions number first ++ notesActions (number + first.length) second := by
  induction first generalizing number with
  | nil => rfl
  | cons body first ih =>
      simp only [notesActions, ih, List.cons_append, List.length_cons, List.append_assoc]
      rw [Nat.add_right_comm, Nat.add_assoc]

namespace Directive

/-- The actions that a directive asks for, if it is no endnote. -/
def actions : Directive → List Action
  | .endWord => [.finishWord]
  | .endLine => [.finishWord, .endLine]
  | .endParagraph => [.finishWord, .endParagraph]
  | .write text => [.addText text]
  | .measure kind value _ _ => [.change (.measure kind value.toNat)]
  | .switch kind on => [.change (.switch kind on)]
  | .note _ _ | .skip _ => []

theorem addText_not_mem_actions {directive : Directive} (quiet : ∀ text, directive ≠ .write text)
    (text : List Char) : Action.addText text ∉ directive.actions := by
  cases directive with
  | write other => exact absurd rfl (quiet other)
  | _ => simp [Directive.actions]

/-- The directive is no endnote. -/
def Plain (directive : Directive) : Prop :=
  ∀ command body, directive ≠ .note command body

theorem note_or_plain (directive : Directive) :
    (∃ command body, directive = .note command body) ∨ directive.Plain := by
  by_cases isNote : ∃ command body, directive = .note command body
  · exact Or.inl isNote
  · exact Or.inr fun command body same => isNote ⟨command, body, same⟩

end Directive

namespace Token

/-- Only an endnote command with an argument asks for an endnote, of the tokens of that argument. -/
theorem of_directive_eq_note {token : Token} {command : Piece} {body : List Token}
    (asked : token.directive = .ok (.note command body)) :
    ∃ text, token.lexeme = .command Command.endnote.name.toList (some text) ∧
      command = commandPiece token.start Command.endnote.name.toList ∧
      body = (argumentPiece token.start Command.endnote.name.toList text).tokens := by
  obtain ⟨start, unit⟩ := token
  cases unit with
  | command name argument =>
      simp only [directive] at asked
      split at asked
      · simp at asked
      · rename_i known named
        cases Command.ofName?_eq_some_iff.mp named
        cases known with
        | measure measure =>
            simp only [commandDirective] at asked
            (repeat' split at asked) <;> simp at asked
        | switch switch on => simp [commandDirective] at asked
        | endnote =>
            cases argument with
            | none => simp [commandDirective] at asked
            | some text =>
                cases asked
                exact ⟨text, rfl, rfl, rfl⟩
  | _ => simp [directive] at asked

theorem noteBody?_of_directive_eq_note {token : Token} {command : Piece} {body : List Token}
    (asked : token.directive = .ok (.note command body)) :
    ∃ text, token.lexeme.noteBody? = some text ∧ body.map lexeme = lexemes text := by
  obtain ⟨text, unit, -, rfl⟩ := of_directive_eq_note asked
  exact ⟨text, Lexeme.noteBody?_eq_some_iff.mpr unit, map_lexeme_place _ _⟩

theorem actions_of_directive {token : Token} {directive : Directive}
    (asked : token.directive = .ok directive) (plain : directive.Plain) :
    token.lexeme.noteBody? = none ∧ directive.actions = token.lexeme.actions := by
  obtain ⟨start, unit⟩ := token
  cases unit with
  | command name argument =>
      simp only [Token.directive] at asked
      split at asked
      · rename_i unknown
        cases asked
        simp [Lexeme.noteBody?, Lexeme.actions, Directive.actions, unknown]
      · rename_i known named
        cases known with
        | measure measure =>
            cases argument with
            | none => simp [commandDirective] at asked
            | some text =>
                simp only [commandDirective, Option.map_some, argumentPiece] at asked
                split at asked
                · simp at asked
                · rename_i value read
                  cases asked
                  simp [Lexeme.noteBody?, Lexeme.actions, Directive.actions, Command.actions, named,
                    read]
        | switch switch on =>
            cases asked
            simp [Lexeme.noteBody?, Lexeme.actions, Directive.actions, Command.actions, named]
        | endnote =>
            cases argument with
            | none => simp [commandDirective] at asked
            | some text =>
                cases asked
                exact absurd rfl (plain _ _)
  | stray | unclosed => simp [Token.directive] at asked
  | _ => cases asked; exact ⟨rfl, rfl⟩

end Token

end Galley
