import Galley.Markup.Problem
import Galley.Markup.Token
import Galley.Text.Numeral

/-! # Directives

A directive is what one token asks for. Which directive a token gives, and whether it gives one at
all, depends on that token alone; whether the number of a directive is allowed is for the document
to say.
-/

namespace Galley

/-- What a token asks for. -/
inductive Directive where
  | endWord
  | endLine
  | endParagraph
  /-- Add characters to the current word. -/
  | write (text : List Char)
  /-- Set a measure; `command` and `argument` are the pieces that say so. -/
  | measure (measure : Measure) (value : Int) (command argument : Piece)
  /-- Turn a switch on or off. -/
  | switch (switch : Switch) (on : Bool)
  /-- Add an endnote with a body of these tokens. -/
  | note (command : Piece) (body : List Token)
  /-- Pass over a command that is not known. -/
  | skip (name : Piece)
deriving DecidableEq

namespace Token

/-- What a known command with a given argument asks for. -/
def commandDirective (command : Piece) (argument : Option Piece) :
    Command → Except Problem Directive
  | .measure measure =>
      match argument with
      | none => .error (.missingArgument command)
      | some argument =>
          match readArgumentValue? argument.text with
          | none => .error (.invalidInteger command argument)
          | some value => .ok (.measure measure value command argument)
  | .switch switch on => .ok (.switch switch on)
  | .endnote =>
      match argument with
      | none => .error (.missingArgument command)
      | some body => .ok (.note command body.tokens)

/-- What a token asks for, or the problem that it shows. -/
def directive (token : Token) : Except Problem Directive :=
  match token.lexeme with
  | .blank _ => .ok .endWord
  | .lineBreak _ => .ok .endLine
  | .paragraphBreak _ _ _ => .ok .endParagraph
  | .escaped char => .ok (.write [char])
  | .text run => .ok (.write run)
  | .stray _ => .error (.invalidCharacter token.piece)
  | .unclosed name _ => .error (.unterminatedArgument (openingPiece token.start name))
  | .command name argument =>
      match Command.ofName? name with
      | none => .ok (.skip (namePiece token.start name))
      | some command =>
          commandDirective (commandPiece token.start name)
            (argument.map (argumentPiece token.start name)) command

end Token

/-- What the tokens of a text ask for, in order. Those that show a problem stand in their place. -/
abbrev Script :=
  List (Except Problem Directive)

/-- What tokens ask for. -/
def Script.ofTokens (tokens : List Token) : Script :=
  tokens.map Token.directive

end Galley
