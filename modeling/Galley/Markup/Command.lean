import Galley.Layout.Settings

/-! # Markup commands

There are three kinds of command: those that set a measure to a number, those that turn a switch on
or off, and the one that adds an endnote.
-/

namespace Galley

/-- The known commands. -/
inductive Command where
  /-- Set a measure to the number in the argument. -/
  | measure (measure : Measure)
  /-- Turn a switch on or off. -/
  | switch (switch : Switch) (on : Bool)
  /-- Add the argument as an endnote. -/
  | endnote
deriving DecidableEq

namespace Command

/-- Every command, in the order in which they are listed to the user. -/
def all : List Command :=
  [measure .indentation, measure .parIndentation, measure .parSkip, measure .textWidth,
    measure .textHeight, switch .fill true, switch .fill false, switch .justify true,
    switch .justify false, endnote]

/-- The name of a command in a document, without its backslash. -/
def name : Command → String
  | measure .indentation => "indent"
  | measure .parIndentation => "parindent"
  | measure .parSkip => "parskip"
  | measure .textWidth => "textwidth"
  | measure .textHeight => "textheight"
  | switch .fill true => "fill"
  | switch .fill false => "nofill"
  | switch .justify true => "justify"
  | switch .justify false => "nojustify"
  | endnote => "endnote"

/-- The command with a given name. Upper and lower case differ. -/
def ofName? (name : List Char) : Option Command :=
  all.find? fun command => command.name.toList = name

/-- The list of commands is complete. -/
theorem mem_all (command : Command) : command ∈ all := by
  match command with
  | measure kind => cases kind <;> decide
  | switch kind on => cases kind <;> cases on <;> decide
  | endnote => decide

/-- Every command is found under its name. -/
theorem ofName?_name (command : Command) : ofName? command.name.toList = some command := by
  match command with
  | measure kind => cases kind <;> decide
  | switch kind on => cases kind <;> cases on <;> decide
  | endnote => decide

theorem ofName?_eq_some_iff {name : List Char} {command : Command} :
    ofName? name = some command ↔ name = command.name.toList := by
  constructor
  · intro found
    have same := List.find?_some found
    exact (of_decide_eq_true same).symm
  · rintro rfl
    exact ofName?_name command

end Command
end Galley
