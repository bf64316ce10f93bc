import Galley.Layout.Requirement
import Galley.Markup.Command
import Galley.Text.Piece

/-! # Problems of a document

A problem ends the formatting of a document, a warning does not. Both point at a piece of the
document and describe themselves in words.
-/

namespace Galley

/-- What is wrong with a document, with the pieces of the document that show it. -/
inductive Problem where
  /-- A character that cannot stand where it does. -/
  | invalidCharacter (char : Piece)
  /-- A brace that opens an argument has no match; `command` runs through that brace. -/
  | unterminatedArgument (command : Piece)
  /-- A command that needs an argument has none. -/
  | missingArgument (command : Piece)
  /-- An endnote stands inside an endnote. -/
  | nestedEndnote (command : Piece)
  /-- The argument of a numeric command is no numeral in range. -/
  | invalidInteger (command argument : Piece)
  /-- The argument of a numeric command breaks the requirement on its value. -/
  | invalidValue (command argument : Piece) (invalid : InvalidValue)
deriving DecidableEq

/-- A remark on a stretch of the document. -/
structure Label where
  span : Span
  text : String
deriving DecidableEq

namespace Problem

/-- Byte range that the problem is about. -/
def span : Problem → Span
  | invalidCharacter char => char.span
  | unterminatedArgument command | missingArgument command | nestedEndnote command => command.span
  | invalidInteger _ argument | invalidValue _ argument _ => argument.span

/-- The problem in words. -/
def message : Problem → String
  | invalidCharacter char =>
      if char.text = ['\\'] then "A backslash must start an escape or a command"
      else if char.text = ['\r'] then "Carriage return outside of a line break"
      else "Unexpected character `" ++ char.toString ++ "`"
  | unterminatedArgument _ => "Command argument is missing its closing brace"
  | missingArgument command => "The `" ++ command.toString ++ "` command requires an argument"
  | nestedEndnote _ => "Endnotes cannot contain other endnotes"
  | invalidInteger command argument =>
      "The argument `" ++ argument.toString ++ "` of the `" ++ command.toString ++
        "` command is not an integer"
  | invalidValue command _ invalid =>
      "The `" ++ command.toString ++ "` command requires " ++ invalid.requirement.describe

/-- Remarks on the pieces of the document that show the problem, the main one first. -/
def labels : Problem → List Label
  | invalidCharacter char => [⟨char.span, "this character is not allowed here"⟩]
  | unterminatedArgument command =>
      [⟨command.span, "the argument starts here and runs to the end of the input"⟩]
  | missingArgument command =>
      [⟨command.span, "expected `\x7b` immediately after `" ++ command.toString ++ "`"⟩]
  | nestedEndnote command => [⟨command.span, "this endnote is inside another endnote"⟩]
  | invalidInteger command argument =>
      [⟨argument.span, "the argument appears here"⟩,
        ⟨command.span, "`" ++ command.toString ++ "` requires an integer argument"⟩]
  | invalidValue command argument invalid =>
      [⟨argument.span, "the provided value is " ++ toString invalid.value⟩,
        ⟨command.span, "`" ++ command.toString ++ "` requires " ++
          invalid.requirement.describe⟩]

/-- Advice on how to mend the problem. -/
def notes : Problem → List String
  | invalidCharacter _ =>
      ["to get a literal `\\`, `\x7b` or `\x7d` escape it with a backslash"]
  | unterminatedArgument _ =>
      ["braces inside an argument must be balanced or escaped (`\\\x7b`, `\\\x7d`)"]
  | nestedEndnote _ => ["an endnote body may only contain text and formatting commands"]
  | missingArgument _ | invalidInteger _ _ | invalidValue _ _ _ => []

end Problem

/-- A fault of a document that does not stop its formatting. -/
inductive Warning where
  /-- There is no command of this name; it was skipped. -/
  | unknownCommand (name : Piece)
deriving DecidableEq

namespace Warning

/-- Byte range that the warning is about. -/
def span : Warning → Span
  | unknownCommand name => name.span

/-- The warning in words. -/
def message : Warning → String
  | unknownCommand name => "Unknown command `\\" ++ name.toString ++ "`"

/-- Advice that comes with the warning. -/
def notes : Warning → List String
  | unknownCommand _ =>
      ["the known commands are " ++
        ", ".intercalate (Command.all.map fun command => "`\\" ++ command.name ++ "`")]

end Warning
end Galley
