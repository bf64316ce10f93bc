import Galley.Json.Double
import Galley.Text.Piece

/-! # Scanning JSON

JSON text is read from left to right, and the first fault that is met ends the reading. Every
scanner returns the text after what it read together with the fact that this text is shorter, so
that repeated reading ends.
-/

namespace Galley.Json

/-- Why JSON text could not be read. -/
inductive Fault where
  /-- The text is JSON so far but has no meaning here: a wrong type, a number out of range, or a
  field that is missing or repeated. -/
  | mistyped
  /-- The text is not JSON. -/
  | malformed
  /-- The text ends too early. -/
  | cutShort
deriving DecidableEq

/-- A value read from the start of a text, and what is left of the text. -/
structure Parsed (α : Type) (text : List Char) where
  value : α
  rest : List Char
  shorter : rest.length < text.length

/-- A way to read a value from the start of a text. -/
abbrev Reader (α : Type) :=
  (text : List Char) → Except Fault (Parsed α text)

/-- A text that is no longer than another. -/
abbrev UpTo (text : List Char) :=
  { rest : List Char // rest.length ≤ text.length }

/-- Replace the value that was read. -/
def Parsed.map {α β : Type} {text : List Char} (convert : α → β) (parsed : Parsed α text) :
    Parsed β text :=
  ⟨convert parsed.value, parsed.rest, parsed.shorter⟩

/-! ### How texts get shorter -/

section
variable {last middle text : List Char} {char : Char}

theorem dropWhile_upTo (keep : Char → Bool) (text : List Char) :
    (text.dropWhile keep).length ≤ text.length :=
  (List.dropWhile_suffix keep).length_le

theorem upTo_self (text : List Char) : text.length ≤ text.length :=
  Nat.le_refl _

theorem tail_shorter (char : Char) (text : List Char) : text.length < (char :: text).length :=
  Nat.lt_succ_self _

theorem shorter_cons (char : Char) (shorter : last.length < text.length) :
    last.length < (char :: text).length :=
  Nat.lt_succ_of_lt shorter

theorem shorter_cons_of_upTo (char : Char) (upTo : last.length ≤ text.length) :
    last.length < (char :: text).length :=
  Nat.lt_succ_of_le upTo

theorem shorter_of_cons_upTo (upTo : (char :: last).length ≤ text.length) :
    last.length < text.length :=
  upTo

theorem upTo_of_shorter (shorter : last.length < text.length) : last.length ≤ text.length :=
  Nat.le_of_lt shorter

theorem shorter_trans (second : last.length < middle.length)
    (first : middle.length < text.length) : last.length < text.length :=
  Nat.lt_trans second first

theorem shorter_of_upTo_of_shorter (second : last.length ≤ middle.length)
    (first : middle.length < text.length) : last.length < text.length :=
  Nat.lt_of_le_of_lt second first

theorem shorter_of_shorter_of_upTo (second : last.length < middle.length)
    (first : middle.length ≤ text.length) : last.length < text.length :=
  Nat.lt_of_lt_of_le second first

theorem upTo_trans (second : last.length ≤ middle.length)
    (first : middle.length ≤ text.length) : last.length ≤ text.length :=
  Nat.le_trans second first

end

/-! ### Parts of every text -/

/-- The characters that may stand between the parts of a JSON text. -/
def isSpace (char : Char) : Bool :=
  char = ' ' || char = '\n' || char = '\t' || char = '\r'

/-- The text after the space at its start. -/
def skipSpace (text : List Char) : UpTo text :=
  ⟨text.dropWhile isSpace, dropWhile_upTo isSpace text⟩

/-- The digits at the start of a text, and the text after them. -/
def splitDigits (text : List Char) : List Char × UpTo text :=
  (text.takeWhile Char.isDigit,
    ⟨text.dropWhile Char.isDigit, dropWhile_upTo Char.isDigit text⟩)

/-- The text after an expected word. -/
def expectWord : (word text : List Char) → Except Fault (UpTo text)
  | [], text => .ok ⟨text, upTo_self text⟩
  | _ :: _, [] => .error .cutShort
  | letter :: word, char :: rest =>
      if letter = char then do
        let ⟨after, upTo⟩ ← expectWord word rest
        have shorter := shorter_cons_of_upTo char upTo
        .ok ⟨after, upTo_of_shorter shorter⟩
      else .error .malformed

/-! ### Numbers -/

/-- What has to be known about a number: its value if it is an integer, and otherwise its range. -/
inductive Number where
  | integer (value : Int)
  /-- A number with a fraction or an exponent, a negative zero, or an integer beyond 64 bits. -/
  | float
  /-- A number beyond the range of floating point. -/
  | huge
deriving DecidableEq

/-- The number with a given sign and given digits before and after the point and, if it has one, an
exponent. -/
def Number.ofParts (negative : Bool) (whole fraction : List Char) (exponent : Option Int) :
    Number :=
  let (high, droppedWhole) := appendDigits 0 whole
  if fraction = [] ∧ exponent = none ∧ droppedWhole = [] then
    if ¬negative then .integer high
    else if 0 < high ∧ high ≤ maxDistance + 1 then .integer (-high)
    else .float
  else
    let (digits, droppedFraction) := appendDigits high fraction
    let places := fraction.length - droppedFraction.length
    if isHuge digits (exponent.getD 0 + droppedWhole.length - places) then .huge else .float

/-- Read digits, of which there must be one at least. -/
def expectDigits (text : List Char) : Except Fault (Parsed (List Char) text) :=
  match text with
  | [] => .error .cutShort
  | char :: rest =>
      if char.isDigit then
        let (more, ⟨after, upTo⟩) := splitDigits rest
        .ok ⟨char :: more, after, shorter_cons_of_upTo char upTo⟩
      else .error .malformed

/-- Read the whole part of a number: a zero alone, or digits that do not start with one. -/
def expectWhole (text : List Char) : Except Fault (Parsed (List Char) text) := do
  let parsed ← expectDigits text
  if parsed.value.head? = some '0' ∧ parsed.value ≠ ['0'] then .error .malformed
  else .ok parsed

/-- The fraction of a number, with its point, if there is one. -/
def splitFraction : (text : List Char) → Except Fault (List Char × UpTo text)
  | [] => .ok ([], ⟨[], upTo_self []⟩)
  | char :: rest =>
      if char = '.' then do
        let ⟨digits, after, shorter⟩ ← expectDigits rest
        have shorterStill := shorter_cons char shorter
        .ok (digits, ⟨after, upTo_of_shorter shorterStill⟩)
      else .ok ([], ⟨char :: rest, upTo_self (char :: rest)⟩)

/-- Read the digits of an exponent, with a sign before them or not. -/
def expectExponent : Reader Int
  | [] => .error .cutShort
  | char :: rest =>
      if char = '-' ∨ char = '+' then do
        let ⟨digits, after, shorter⟩ ← expectDigits rest
        let size : Int := digitsValue 0 digits
        .ok ⟨if char = '-' then -size else size, after, shorter_cons char shorter⟩
      else do
        let parsed ← expectDigits (char :: rest)
        .ok (parsed.map fun digits => digitsValue 0 digits)

/-- The exponent of a number, with its letter, if there is one. -/
def splitExponent : (text : List Char) → Except Fault (Option Int × UpTo text)
  | [] => .ok (none, ⟨[], upTo_self []⟩)
  | char :: rest =>
      if char = 'e' ∨ char = 'E' then do
        let ⟨exponent, after, shorter⟩ ← expectExponent rest
        have shorterStill := shorter_cons char shorter
        .ok (some exponent, ⟨after, upTo_of_shorter shorterStill⟩)
      else .ok (none, ⟨char :: rest, upTo_self (char :: rest)⟩)

/-- Read a number without its sign. -/
def readUnsigned (negative : Bool) : Reader Number := fun text => do
  let ⟨whole, afterWhole, shorter⟩ ← expectWhole text
  let (fraction, ⟨afterFraction, fractionUpTo⟩) ← splitFraction afterWhole
  let (exponent, ⟨after, exponentUpTo⟩) ← splitExponent afterFraction
  have upTo := upTo_trans exponentUpTo fractionUpTo
  .ok ⟨.ofParts negative whole fraction exponent, after, shorter_of_upTo_of_shorter upTo shorter⟩

/-- Read a number. -/
def readNumber : Reader Number
  | [] => .error .cutShort
  | char :: rest =>
      if char = '-' then do
        let ⟨number, after, shorter⟩ ← readUnsigned true rest
        .ok ⟨number, after, shorter_cons char shorter⟩
      else readUnsigned false (char :: rest)

/-! ### Strings -/

/-- The value of a hexadecimal digit. -/
def hexDigit? (char : Char) : Option Nat :=
  if char.isDigit then some (char.toNat - '0'.toNat)
  else if 'a' ≤ char ∧ char ≤ 'f' then some (char.toNat - 'a'.toNat + 10)
  else if 'A' ≤ char ∧ char ≤ 'F' then some (char.toNat - 'A'.toNat + 10)
  else none

/-- Read four hexadecimal digits. Whether the text ends too early is decided by its bytes. -/
def readUnit : Reader Nat
  | first :: second :: third :: fourth :: rest =>
      match hexDigit? first, hexDigit? second, hexDigit? third, hexDigit? fourth with
      | some a, some b, some c, some d =>
          have afterFourth := tail_shorter fourth rest
          have afterThird := shorter_cons third afterFourth
          have afterSecond := shorter_cons second afterThird
          .ok ⟨((a * 16 + b) * 16 + c) * 16 + d, rest, shorter_cons first afterSecond⟩
      | _, _, _, _ => .error .malformed
  | text => .error (if byteLength text < 4 then .cutShort else .malformed)

/-- Whether a unit is the first of a pair that stands for one character. -/
def isHighSurrogate (unit : Nat) : Bool :=
  0xD800 ≤ unit ∧ unit < 0xDC00

/-- Whether a unit is the second of a pair that stands for one character. -/
def isLowSurrogate (unit : Nat) : Bool :=
  0xDC00 ≤ unit ∧ unit < 0xE000

/-- Read the second unit of a pair, written as an escape of its own. -/
def readLowSurrogate : Reader Nat
  | [] => .error .cutShort
  | char :: afterBackslash =>
      if char ≠ '\\' then .error .malformed
      else match afterBackslash with
        | [] => .error .cutShort
        | letter :: afterLetter =>
            if letter ≠ 'u' then .error .malformed
            else do
              let ⟨unit, after, shorter⟩ ← readUnit afterLetter
              have afterChar := shorter_cons letter shorter
              if isLowSurrogate unit then .ok ⟨unit, after, shorter_cons char afterChar⟩
              else .error .malformed

/-- Read the character of an escape by number, after the letter `u`. If the text is to be kept, two
units that stand for one character have to come together. -/
def readCodePoint (kept : Bool) : Reader Char := fun text => do
  let ⟨unit, after, shorter⟩ ← readUnit text
  if kept && isLowSurrogate unit then .error .malformed
  else if kept && isHighSurrogate unit then do
    let ⟨low, afterLow, lowShorter⟩ ← readLowSurrogate after
    .ok ⟨Char.ofNat (0x10000 + (unit - 0xD800) * 0x400 + (low - 0xDC00)), afterLow,
      shorter_trans lowShorter shorter⟩
  else .ok ⟨Char.ofNat unit, after, shorter⟩

/-- The characters that are escaped by a letter or by themselves. -/
def simpleEscape? : Char → Option Char
  | '"' => some '"'
  | '\\' => some '\\'
  | '/' => some '/'
  | 'b' => some '\x08'
  | 'f' => some '\x0c'
  | 'n' => some '\n'
  | 'r' => some '\r'
  | 't' => some '\t'
  | _ => none

/-- Read the character of an escape, after its backslash. -/
def readEscape (kept : Bool) : Reader Char
  | [] => .error .cutShort
  | letter :: rest =>
      match simpleEscape? letter with
      | some char => .ok ⟨char, rest, tail_shorter letter rest⟩
      | none =>
          if letter = 'u' then do
            let ⟨char, after, shorter⟩ ← readCodePoint kept rest
            .ok ⟨char, after, shorter_cons letter shorter⟩
          else .error .malformed

/-- Read the characters of a string, after the quote that opens it. -/
def readCharacters (kept : Bool) : Reader (List Char)
  | [] => .error .cutShort
  | char :: rest =>
      if char = '"' then .ok ⟨[], rest, tail_shorter char rest⟩
      else if char = '\\' then do
        let ⟨escaped, after, shorter⟩ ← readEscape kept rest
        have afterShorter := shorter_cons char shorter
        let ⟨chars, last, lastShorter⟩ ← readCharacters kept after
        .ok ⟨escaped :: chars, last, shorter_trans lastShorter afterShorter⟩
      else if char < ' ' then .error .malformed
      else do
        have restShorter := tail_shorter char rest
        let ⟨chars, last, shorter⟩ ← readCharacters kept rest
        .ok ⟨char :: chars, last, shorter_trans shorter restShorter⟩
termination_by text => text.length
decreasing_by all_goals assumption

end Galley.Json
