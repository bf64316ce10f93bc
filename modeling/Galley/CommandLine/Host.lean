/-! # The outside of a run

A run reads files and the standard input and writes a file or the standard output. What can go
wrong there has a text of the system, which messages quote.
-/

namespace Galley.CommandLine

/-- Why a file could not be read or written. -/
inductive FileFault where
  | missing
  | isDirectory
  | notDirectory
  | nameTooLong
  /-- Another reason, in the words of the system. -/
  | system (text : String)
deriving DecidableEq

/-- The words of the system for a fault. -/
def FileFault.message : FileFault → String
  | missing => "No such file or directory (os error 2)"
  | isDirectory => "Is a directory (os error 21)"
  | notDirectory => "Not a directory (os error 20)"
  | nameTooLong => "File name too long (os error 36)"
  | system text => text

/-- What a run can do to its outside. -/
class Host (m : Type → Type) where
  /-- The content of a file. -/
  load : (path : String) → m (Except FileFault ByteArray)
  /-- All of the standard input. -/
  loadInput : m (Except FileFault ByteArray)
  /-- Make a file hold a content and nothing else. -/
  store : (path : String) → (content : ByteArray) → m (Except FileFault Unit)
  /-- Write to the standard output. -/
  print : (content : ByteArray) → m (Except FileFault Unit)

end Galley.CommandLine
