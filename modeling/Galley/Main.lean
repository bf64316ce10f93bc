import Galley.CommandLine.Help
import Galley.CommandLine.Run

/-! # The command line program

The program reads and writes files and reports to the user. All decisions are made by
`Galley.CommandLine.run`.
-/

namespace Galley.CommandLine

/-- The words of the system for an error of input or output. -/
def describeError : IO.Error → String
  | .noFileOrDirectory _ _ _ => FileFault.missing.message
  | .inappropriateType _ 21 _ => FileFault.isDirectory.message
  | .inappropriateType _ 20 _ => FileFault.notDirectory.message
  | .invalidArgument _ 36 _ => FileFault.nameTooLong.message
  | error => error.toString

/-- Perform an action and keep its error in words. -/
def guardFault {α : Type} (action : IO α) : IO (Except FileFault α) := do
  try
    return .ok (← action)
  catch error =>
    return .error (.system (describeError error))

/-- Read a stream to its end. -/
partial def readToEnd (stream : IO.FS.Stream) (content : ByteArray) : IO ByteArray := do
  let block ← stream.read 65536
  if block.isEmpty then return content
  readToEnd stream (content ++ block)

instance : Host IO where
  load path := guardFault (IO.FS.readBinFile path)
  loadInput := guardFault do readToEnd (← IO.getStdin) .empty
  store path content := guardFault (IO.FS.writeBinFile path content)
  print content := guardFault do
    let stdout ← IO.getStdout
    stdout.write content
    stdout.flush

/-- Report a run to the user. -/
def report (outcome : Outcome) : IO Unit := do
  for diagnostic in outcome.diagnostics do
    IO.eprintln diagnostic.headline
    IO.eprintln ("  at " ++ diagnostic.place)
  match outcome.ending with
  | .failure text => IO.eprintln ("error: " ++ text)
  | .success | .rejected => return

/-- Do what the arguments ask for and return the exit status. -/
def start (arguments : List String) : IO UInt32 := do
  match Request.ofArguments arguments with
  | .error error =>
      IO.eprintln ("error: " ++ error.message)
      return 2
  | .ok .version =>
      IO.print versionText
      return 0
  | .ok .summary =>
      IO.print summaryText
      return 0
  | .ok .help =>
      IO.print helpText
      return 0
  | .ok (.format options) =>
      let outcome ← (run options : IO Outcome)
      report outcome
      return outcome.status

end Galley.CommandLine

/-- Run the program on its arguments. -/
def main (arguments : List String) : IO UInt32 :=
  Galley.CommandLine.start arguments
