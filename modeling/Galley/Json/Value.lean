import Galley.Json.Scan

/-! # JSON values

A value is either read as one of the types that are needed, or passed over. A value of the wrong
type is looked at first: if it is a number, a word or a string that is not JSON itself, then that
is the fault.
-/

namespace Galley.Json

/-- The letters after the first letter of a word that is a value. -/
def wordTail? : Char → Option (List Char)
  | 'n' => some ['u', 'l', 'l']
  | 't' => some ['r', 'u', 'e']
  | 'f' => some ['a', 'l', 's', 'e']
  | _ => none

/-- Read a number that is within the range of floating point. -/
def readFinite : Reader Number := fun text => do
  let parsed ← readNumber text
  if parsed.value = .huge then .error .malformed else .ok parsed

/-- Pass over a number. A number that is cut short is not JSON. -/
def skipNumber : Reader Number := fun text =>
  (readNumber text).mapError fun _ => .malformed

/-- Read a number, a word or a string. If the value is to be kept, numbers have to be in range and
strings have to be text. -/
def readScalar (kept : Bool) : Reader Unit
  | [] => .error .cutShort
  | char :: rest =>
      if char = '"' then do
        let ⟨_, after, shorter⟩ ← readCharacters kept rest
        .ok ⟨(), after, shorter_cons char shorter⟩
      else if char = '-' ∨ char.isDigit then do
        let parsed ← (if kept then readFinite else skipNumber) (char :: rest)
        .ok (parsed.map fun _ => ())
      else match wordTail? char with
        | none => .error .malformed
        | some tail => do
            let ⟨after, upTo⟩ ← expectWord tail rest
            .ok ⟨(), after, shorter_cons_of_upTo char upTo⟩

/-- The fault of the value at the start of a text that stands where another type is needed. -/
def mismatch : List Char → Fault
  | [] => .cutShort
  | char :: rest =>
      if char = '[' ∨ char = '\x7b' then .mistyped
      else match readScalar true (char :: rest) with
        | .ok _ => .mistyped
        | .error fault => fault

/-- Read a value that may have space before it. -/
def afterSpace {α : Type} (reader : Reader α) : Reader α := fun text => do
  let ⟨start, upTo⟩ := skipSpace text
  let ⟨value, rest, shorter⟩ ← reader start
  .ok ⟨value, rest, shorter_of_shorter_of_upTo shorter upTo⟩

/-! ### Values that are passed over -/

/-- The two kinds of value that hold other values. -/
inductive Bracket where
  | list
  | object
deriving DecidableEq

/-- The character that ends a list or object. -/
def Bracket.closing : Bracket → Char
  | list => ']'
  | object => '\x7d'

/-- Read a given mark, which may have space before it. -/
def expectMark (mark : Char) : Reader Unit :=
  afterSpace fun
    | [] => .error .cutShort
    | char :: rest =>
        if char = mark then .ok ⟨(), rest, tail_shorter char rest⟩ else .error .malformed

/-- Read the key of a member. -/
def readKey (kept : Bool) : Reader (List Char) := fun text => do
  let ⟨_, afterQuote, quoteShorter⟩ ← expectMark '"' text
  let ⟨key, rest, shorter⟩ ← readCharacters kept afterQuote
  .ok ⟨key, rest, shorter_trans shorter quoteShorter⟩

/-- Pass over the key of a member and the colon after it. -/
def skipKey : Reader Unit := fun text => do
  let ⟨_, afterKey, keyShorter⟩ ← readKey false text
  let ⟨_, rest, shorter⟩ ← expectMark ':' afterKey
  .ok ⟨(), rest, shorter_trans shorter keyShorter⟩

/-- Read the first character after space, with which a value or a mark starts. -/
def nextCharacter : Reader Char := fun text =>
  match skipSpace text with
  | ⟨[], _⟩ => .error .cutShort
  | ⟨char :: rest, upTo⟩ => .ok ⟨char, rest, shorter_of_cons_upTo upTo⟩

mutual

/-- Pass over a value inside the lists and objects that are open, innermost first, and over the
rest of these. -/
def skipInside (opened : List Bracket) : Reader Unit := fun text => do
  let ⟨char, rest, restShorter⟩ ← nextCharacter text
  if char = '[' then
    let ⟨next, after, nextShorter⟩ ← nextCharacter rest
    have afterShorter := shorter_trans nextShorter restShorter
    if next = ']' then
      let ⟨last, upTo⟩ ← skipAfter opened after
      .ok ⟨(), last, shorter_of_upTo_of_shorter upTo afterShorter⟩
    else
      let ⟨_, last, shorter⟩ ← skipInside (.list :: opened) rest
      .ok ⟨(), last, shorter_trans shorter restShorter⟩
  else if char = '\x7b' then
    let ⟨next, after, nextShorter⟩ ← nextCharacter rest
    have afterShorter := shorter_trans nextShorter restShorter
    if next = '\x7d' then
      let ⟨last, upTo⟩ ← skipAfter opened after
      .ok ⟨(), last, shorter_of_upTo_of_shorter upTo afterShorter⟩
    else
      let ⟨_, value, keyShorter⟩ ← skipKey rest
      have valueShorter := shorter_trans keyShorter restShorter
      let ⟨_, last, shorter⟩ ← skipInside (.object :: opened) value
      .ok ⟨(), last, shorter_trans shorter valueShorter⟩
  else
    let ⟨_, after, afterShorter⟩ ← afterSpace (readScalar false) text
    let ⟨last, upTo⟩ ← skipAfter opened after
    .ok ⟨(), last, shorter_of_upTo_of_shorter upTo afterShorter⟩
termination_by text => text.length
decreasing_by all_goals assumption

/-- Pass over what follows a value in the lists and objects that are open. -/
def skipAfter : List Bracket → (text : List Char) → Except Fault (UpTo text)
  | [], text => .ok ⟨text, upTo_self text⟩
  | bracket :: outer, text => do
      let ⟨char, rest, restShorter⟩ ← nextCharacter text
      if char = bracket.closing then
        let ⟨last, upTo⟩ ← skipAfter outer rest
        have shorter := shorter_of_upTo_of_shorter upTo restShorter
        .ok ⟨last, upTo_of_shorter shorter⟩
      else if char ≠ ',' then .error .malformed
      else if bracket = .list then
        let ⟨_, last, lastShorter⟩ ← skipInside (bracket :: outer) rest
        have shorter := shorter_trans lastShorter restShorter
        .ok ⟨last, upTo_of_shorter shorter⟩
      else
        let ⟨_, value, keyShorter⟩ ← skipKey rest
        have valueShorter := shorter_trans keyShorter restShorter
        let ⟨_, last, lastShorter⟩ ← skipInside (bracket :: outer) value
        have shorter := shorter_trans lastShorter valueShorter
        .ok ⟨last, upTo_of_shorter shorter⟩
termination_by _ text => text.length
decreasing_by all_goals assumption

end

/-- Pass over a value of any type. -/
def skipValue : Reader Unit := fun text =>
  skipInside [] text

/-! ### Values that are kept -/

/-- Read an integer that satisfies a condition. -/
def readInteger (allowed : Int → Bool) : Reader Int :=
  afterSpace fun
    | [] => .error .cutShort
    | char :: rest =>
        if char = '-' ∨ char.isDigit then do
          let parsed ← readFinite (char :: rest)
          match parsed.value with
          | .integer value =>
              if allowed value then .ok (parsed.map fun _ => value) else .error .mistyped
          | _ => .error .mistyped
        else .error (mismatch (char :: rest))

/-- Read a size, which is not negative. -/
def readSize : Reader Nat := fun text => do
  let parsed ← readInteger (fun value => 0 ≤ value ∧ value ≤ maxSize) text
  .ok (parsed.map Int.toNat)

/-- Read a distance, which may be negative. -/
def readDistance : Reader Int :=
  readInteger fun value => -maxDistance - 1 ≤ value ∧ value ≤ maxDistance

/-- Read a truth value. -/
def readBool : Reader Bool :=
  afterSpace fun
    | [] => .error .cutShort
    | char :: rest =>
        if char = 't' ∨ char = 'f' then do
          let parsed ← readScalar true (char :: rest)
          .ok (parsed.map fun _ => char = 't')
        else .error (mismatch (char :: rest))

/-- Read a value that may also be null. -/
def readNullable {α : Type} (reader : Reader α) : Reader (Option α) :=
  afterSpace fun
    | [] => .error .cutShort
    | char :: rest =>
        if char = 'n' then do
          let parsed ← readScalar true (char :: rest)
          .ok (parsed.map fun _ => none)
        else do
          let parsed ← reader (char :: rest)
          .ok (parsed.map some)

end Galley.Json
