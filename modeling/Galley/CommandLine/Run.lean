import Galley.CommandLine.Host
import Galley.CommandLine.Options
import Galley.Formatting
import Galley.Json.Presets
import Galley.Text.Position
import Galley.Text.Quoted

/-! # A run of the program

A run gathers its presets, reads its input, formats it and writes the lines. Each step is taken
only if the one before it succeeded, so nothing is written unless the whole document is formatted.
-/

namespace Galley.CommandLine

/-- Whether a message is about something that stopped the run. -/
inductive Severity where
  | warning
  | error
deriving DecidableEq

/-- The word for a severity at the start of a message. -/
def Severity.word : Severity → String
  | warning => "Warning"
  | error => "Error"

/-- A message about a place in the input. -/
structure Diagnostic where
  severity : Severity
  message : String
  /-- Name of the input. -/
  file : String
  position : Position
deriving DecidableEq

/-- How a run ended. -/
inductive Ending where
  | success
  /-- The document has a problem, which stands among the diagnostics. -/
  | rejected
  /-- Something else went wrong. -/
  | failure (text : String)
deriving DecidableEq

/-- Everything that is reported of a run. -/
structure Outcome where
  diagnostics : List Diagnostic
  ending : Ending
deriving DecidableEq

/-- The characters before the first line break. -/
def firstLine : List Char → List Char
  | [] => []
  | '\n' :: _ => []
  | '\r' :: '\n' :: _ => []
  | char :: rest => char :: firstLine rest

namespace Diagnostic

/-- The first line of the message, with the severity before it. -/
def headline (diagnostic : Diagnostic) : String :=
  diagnostic.severity.word ++ ": " ++ String.ofList (firstLine diagnostic.message.toList)

/-- The place that the diagnostic is about. -/
def place (diagnostic : Diagnostic) : String :=
  diagnostic.file ++ ":" ++ toString diagnostic.position.line ++ ":" ++
    toString diagnostic.position.column

/-- The diagnostic for a warning. -/
def ofWarning (file : String) (source : List Char) (warning : Warning) : Diagnostic :=
  ⟨.warning, warning.message, file, .ofOffset source warning.span.start⟩

/-- The diagnostic for a problem. -/
def ofProblem (file : String) (source : List Char) (problem : Problem) : Diagnostic :=
  ⟨.error, problem.message, file, .ofOffset source problem.span.start⟩

end Diagnostic

/-- The exit status of a run. -/
def Outcome.status (outcome : Outcome) : UInt32 :=
  match outcome.ending with
  | .success => 0
  | .rejected | .failure _ => 1

/-- The characters of UTF-8 bytes. -/
def decode (content : ByteArray) : Except FileFault (List Char) :=
  match String.fromUTF8? content with
  | some text => .ok text.toList
  | none => .error (.system "stream did not contain valid UTF-8")

/-- Replace presets of the main text by the options that are given. -/
def Options.override (options : Options) (presets : Presets) : Except String Presets := do
  let main := presets.main
  let parIndentation ← match options.parIndent with
    | none => .ok main.parIndentation
    | some number =>
        if maxDistance < number then
          .error ("paragraph indentation " ++ toString number ++ " is too large")
        else .ok number
  return { presets with
    main :=
      { textWidth := options.textWidth.getD main.textWidth
        indentation := options.indent.getD main.indentation
        parIndentation
        parSkip := options.parSkip.getD main.parSkip
        textHeight := options.textHeight.or main.textHeight
        fill := main.fill && !options.noFill
        justify := main.justify && !options.noJustify } }

/-- The presets of a file, or the default ones. -/
def presetsOfFile (path : Option String) (content : Except FileFault ByteArray) :
    Except String Presets :=
  match path with
  | none => .ok .default
  | some path =>
      match content.bind decode with
      | .error fault =>
          .error ("failed to open presets file " ++ quote path ++ ": " ++ fault.message)
      | .ok text =>
          (Json.presetsOfText text).mapError fun _ =>
            "failed to parse presets file " ++ quote path

/-- The presets of a run, given the content of the presets file. -/
def Options.startingPresets (options : Options) (content : Except FileFault ByteArray) :
    Except String Presets := do
  let presets ← options.override (← presetsOfFile options.presets content)
  match presets.invalid?, options.presets with
  | none, _ => .ok presets
  | some invalid, none => .error ("invalid parameters: " ++ invalid.message)
  | some invalid, some path =>
      .error ("invalid presets file " ++ quote path ++ ": " ++ invalid.message)

/-- The file that the input is read from, unless it is the standard input. -/
def Options.inputFile (options : Options) : Option String :=
  options.input.filter (· ≠ "-")

/-- The source of a run, given the content of its input. -/
def Options.source (options : Options) (content : Except FileFault ByteArray) :
    Except String (List Char) :=
  (content.bind decode).mapError fun fault =>
    match options.inputFile with
    | none => "failed to read standard input: " ++ fault.message
    | some path => "failed to open file " ++ quote path ++ ": " ++ fault.message

section
variable {m : Type → Type} [Monad m] [Host m]

/-- The presets of a run. -/
def gatherPresets (options : Options) : m (Except String Presets) := do
  match options.presets with
  | none => return options.startingPresets (.error .missing)
  | some path => return options.startingPresets (← Host.load path)

/-- The source of a run. -/
def gatherSource (options : Options) : m (Except String (List Char)) := do
  match options.inputFile with
  | none => return options.source (← Host.loadInput)
  | some path => return options.source (← Host.load path)

/-- Write the formatted text where it belongs. -/
def writeOutput (options : Options) (content : ByteArray) : m (Except String Unit) := do
  match options.output with
  | none =>
      return (← Host.print content).mapError fun fault =>
        "failed to write to standard output: " ++ fault.message
  | some path =>
      return (← Host.store path content).mapError fun fault =>
        "failed to write file " ++ quote path ++ ": " ++ fault.message

/-- Format a source and write the lines. -/
def formatSource (options : Options) (presets : Presets) (source : List Char) : m Outcome := do
  let file := options.inputFile.getD "<stdin>"
  let (writer, report) := writeFormatted presets source (.new none false)
  let warnings := report.warnings.toList.map (.ofWarning file source)
  match report.outcome with
  | .error (.document problem) =>
      return ⟨warnings ++ [.ofProblem file source problem], .rejected⟩
  | .error failure => return ⟨warnings, .failure failure.message⟩
  | .ok () =>
      match ← writeOutput options ⟨writer.written⟩ with
      | .error text => return ⟨warnings, .failure text⟩
      | .ok () => return ⟨warnings, .success⟩

/-- Format the input as the options say. -/
def run (options : Options) : m Outcome := do
  match ← gatherPresets options with
  | .error text => return ⟨[], .failure text⟩
  | .ok presets =>
      match ← gatherSource options with
      | .error text => return ⟨[], .failure text⟩
      | .ok source => formatSource options presets source

end

end Galley.CommandLine
