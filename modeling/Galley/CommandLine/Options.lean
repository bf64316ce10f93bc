import Galley.Text.Numeral

/-! # Command line options

The arguments are read from left to right, and the first one that cannot be used ends the reading,
as does a request for the version or for help. An option with a value takes it from its own
argument or from the next one. The argument `--` ends the options, and `-` is a value.
-/

namespace Galley.CommandLine

/-- Options with a value. -/
inductive ValueOption where
  | output
  | presets
  | textWidth
  | textHeight
  | indent
  | parIndent
  | parSkip
deriving DecidableEq

/-- Options without a value. -/
inductive Flag where
  | noFill
  | noJustify
deriving DecidableEq

/-- What is wrong with the arguments. -/
inductive UsageError where
  | unknownOption (option : String)
  | repeated (option : String)
  | missingValue (option : String)
  | unexpectedValue (option : String)
  | invalidValue (option value : String)
  | emptyValue (option : String)
  | extraInput (value : String)
deriving DecidableEq

/-- The error in words. -/
def UsageError.message : UsageError → String
  | unknownOption option => "unexpected argument '" ++ option ++ "' found"
  | repeated option => "the argument '" ++ option ++ "' cannot be used multiple times"
  | missingValue option => "a value is required for '" ++ option ++ "' but none was supplied"
  | unexpectedValue option => "no value is taken by '" ++ option ++ "'"
  | invalidValue option value => "invalid value '" ++ value ++ "' for '" ++ option ++ "'"
  | emptyValue option => "an empty value was given for '" ++ option ++ "'"
  | extraInput value => "unexpected argument '" ++ value ++ "' found"

/-- The options of a run, as far as they are given. -/
structure Options where
  input : Option String
  output : Option String
  presets : Option String
  textWidth : Option Nat
  textHeight : Option Nat
  indent : Option Nat
  parIndent : Option Nat
  parSkip : Option Nat
  noFill : Bool
  noJustify : Bool
deriving DecidableEq

/-- What the arguments ask for. -/
inductive Request where
  | format (options : Options)
  | version
  /-- A summary of the options. -/
  | summary
  | help
deriving DecidableEq

namespace ValueOption

/-- Every option with a value. -/
def all : List ValueOption :=
  [output, presets, textWidth, textHeight, indent, parIndent, parSkip]

/-- The name of an option, after two dashes. -/
def name : ValueOption → String
  | output => "output"
  | presets => "presets"
  | textWidth => "text-width"
  | textHeight => "text-height"
  | indent => "indent"
  | parIndent => "par-indent"
  | parSkip => "par-skip"

end ValueOption

namespace Flag

/-- Every option without a value. -/
def all : List Flag :=
  [noFill, noJustify]

/-- The name of a flag, after two dashes. -/
def name : Flag → String
  | noFill => "no-fill"
  | noJustify => "no-justify"

end Flag

/-- The numbers that an option may be given. -/
def readCount? (text : String) : Option Nat :=
  (readNatural? text.toList).filter (· ≤ maxSize)

namespace Options

/-- No option is given. -/
def initial : Options where
  input := none
  output := none
  presets := none
  textWidth := none
  textHeight := none
  indent := none
  parIndent := none
  parSkip := none
  noFill := false
  noJustify := false

/-- Put a value into an option that may be given once. -/
def once {α : Type} (option : String) (present : Option α) (value : Except UsageError α) :
    Except UsageError (Option α) :=
  match present with
  | some _ => .error (.repeated option)
  | none => value.map some

/-- A file name, which may not be empty. -/
def fileName (option value : String) : Except UsageError String :=
  if value = "" then .error (.emptyValue option) else .ok value

/-- A number for an option. -/
def count (option value : String) : Except UsageError Nat :=
  match readCount? value with
  | none => .error (.invalidValue option value)
  | some number => .ok number

/-- A number for an option that may not be zero. -/
def positiveCount (option value : String) : Except UsageError Nat := do
  let number ← count option value
  if number = 0 then .error (.invalidValue option value) else .ok number

/-- Give an option its value. -/
def set (options : Options) (option : ValueOption) (value : String) :
    Except UsageError Options := do
  let name := "--" ++ option.name
  match option with
  | .output => return { options with output := ← once name options.output (fileName name value) }
  | .presets =>
      return { options with presets := ← once name options.presets (fileName name value) }
  | .textWidth =>
      return { options with textWidth := ← once name options.textWidth (positiveCount name value) }
  | .textHeight =>
      return { options with
        textHeight := ← once name options.textHeight (positiveCount name value) }
  | .indent => return { options with indent := ← once name options.indent (count name value) }
  | .parIndent =>
      return { options with parIndent := ← once name options.parIndent (count name value) }
  | .parSkip => return { options with parSkip := ← once name options.parSkip (count name value) }

/-- Turn a flag on. -/
def turnOn (options : Options) : Flag → Except UsageError Options
  | .noFill =>
      if options.noFill then .error (.repeated "--no-fill")
      else .ok { options with noFill := true }
  | .noJustify =>
      if options.noJustify then .error (.repeated "--no-justify")
      else .ok { options with noJustify := true }

/-- Name the input. -/
def setInput (options : Options) (value : String) : Except UsageError Options :=
  match options.input with
  | some _ => .error (.extraInput value)
  | none => do
      let name ← fileName "[INPUT]" value
      return { options with input := some name }

end Options

/-- The kinds of argument. -/
inductive Argument where
  /-- The end of the options. -/
  | terminator
  /-- An option by its name, with the value that is attached to it. -/
  | long (name : List Char) (attached : Option (List Char))
  /-- An option by its letter, with what follows the letter. -/
  | short (letter : Char) (rest : List Char)
  | value (text : String)

/-- The kind of an argument. -/
def Argument.ofString (text : String) : Argument :=
  match text.toList with
  | ['-', '-'] => terminator
  | '-' :: '-' :: body =>
      let name := body.takeWhile (· ≠ '=')
      long name ((body.dropWhile (· ≠ '=')).tail?)
  | '-' :: letter :: rest => short letter rest
  | _ => value text

/-- Whether an argument can stand as the value of the option before it. -/
def isSeparateValue (text : String) : Bool :=
  match Argument.ofString text with
  | .value _ => true
  | _ => false

/-- The value of an option and the arguments after it: what is attached to the option, or else the
next argument. -/
def takeValue (attached : Option (List Char)) (rest : List String) :
    Option (String × { after : List String // after.length ≤ rest.length }) :=
  match attached with
  | some value => some (String.ofList value, ⟨rest, Nat.le_refl _⟩)
  | none =>
      match rest with
      | [] => none
      | value :: after =>
          if isSeparateValue value then some (value, ⟨after, Nat.le_succ _⟩) else none

/-- What is attached to an option that is given by its letter; an equals sign before it is
dropped. -/
def attachedToLetter : List Char → Option (List Char)
  | [] => none
  | '=' :: value => some value
  | value => some value

/-- Read arguments after some options have been given. -/
def readArguments (options : Options) : List String → Except UsageError Request
  | [] => .ok (.format options)
  | argument :: rest =>
      match Argument.ofString argument with
      | .terminator => (rest.foldlM Options.setInput options).map .format
      | .value text => do readArguments (← options.setInput text) rest
      | .short letter attached =>
          if letter = 'V' then .ok .version
          else if letter = 'h' then .ok .summary
          else if letter = 'o' then
            match takeValue (attachedToLetter attached) rest with
            | none => .error (.missingValue argument)
            | some (value, ⟨after, _⟩) => do readArguments (← options.set .output value) after
          else .error (.unknownOption argument)
      | .long name attached =>
          match ValueOption.all.find? fun option => option.name.toList = name with
          | some option =>
              match takeValue attached rest with
              | none => .error (.missingValue argument)
              | some (value, ⟨after, _⟩) => do readArguments (← options.set option value) after
          | none =>
              match Flag.all.find? fun flag => flag.name.toList = name with
              | some flag =>
                  if attached.isSome then .error (.unexpectedValue argument)
                  else do readArguments (← options.turnOn flag) rest
              | none =>
                  if name ≠ "version".toList ∧ name ≠ "help".toList then
                    .error (.unknownOption argument)
                  else if attached.isSome then .error (.unexpectedValue argument)
                  else .ok (if name = "version".toList then .version else .help)
termination_by arguments => arguments.length

/-- What a list of arguments asks for. -/
def Request.ofArguments (arguments : List String) : Except UsageError Request :=
  readArguments .initial arguments

end Galley.CommandLine
