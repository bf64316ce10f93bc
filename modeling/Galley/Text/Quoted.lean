import Galley.Text.Extending
import Galley.Text.Ignorable
import Galley.Text.Unprintable

/-! # Quoted names

In messages a file name stands between double quotes. Characters that would hide where it ends,
that cannot be seen or may show nothing, or that are drawn onto the character before them are
escaped.
-/

namespace Galley

/-- Whether a character is written by its number in a quoted name. -/
def needsNumber (char : Char) : Bool :=
  isUnprintable char || isIgnorable char || isExtending char

/-- How a character stands in a quoted name. -/
def quoteChar (char : Char) : String :=
  if char = '"' then "\\\""
  else if char = '\\' then "\\\\"
  else if char = '\t' then "\\t"
  else if char = '\n' then "\\n"
  else if char = '\r' then "\\r"
  else if char = '\x00' then "\\0"
  else if needsNumber char then
    "\\u\x7b" ++ String.ofList (Nat.toDigits 16 char.toNat) ++ "\x7d"
  else String.singleton char

/-- A name between quotes. -/
def quote (name : String) : String :=
  "\"" ++ String.join (name.toList.map quoteChar) ++ "\""

end Galley
