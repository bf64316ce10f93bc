/-! # Decimal numerals

A numeral is written with ASCII digits alone: no blanks, no separators, no other digits. Leading
zeros are allowed and at least one digit is required. Where a number is read, it has to lie in the
range of the numbers that are wanted there.
-/

namespace Galley

/-- Value of a digit string, most significant digit first, continuing from `high`. -/
def digitsValue (high : Nat) (digits : List Char) : Nat :=
  digits.foldl (fun value digit => 10 * value + (digit.toNat - '0'.toNat)) high

/-- The number written by one or more ASCII digits. -/
def readDigits? (text : List Char) : Option Nat :=
  if text ≠ [] ∧ text.all Char.isDigit then some (digitsValue 0 text) else none

/-- The number written by digits after an optional plus sign. -/
def readNatural? : List Char → Option Nat
  | '+' :: digits => readDigits? digits
  | digits => readDigits? digits

/-- The integer written by digits after an optional sign. -/
def readInteger? : List Char → Option Int
  | '-' :: digits => (readDigits? digits).map fun value => -(value : Int)
  | text => (readNatural? text).map fun value => (value : Int)

/-- The largest number of 64 bits. Sizes go up to it. -/
def maxSize : Nat :=
  18446744073709551615

/-- Append digits to a number as long as it stays a size. The digits that are left come with it. -/
def appendDigits (high : Nat) : List Char → Nat × List Char
  | [] => (high, [])
  | digit :: rest =>
      let value := digitsValue high [digit]
      if value ≤ maxSize then appendDigits value rest else (high, digit :: rest)

/-- The largest signed number of 64 bits. Distances go up to it. -/
def maxDistance : Nat :=
  9223372036854775807

/-- Numeric arguments are the signed numbers of 32 bits. -/
def IsArgumentValue (value : Int) : Prop :=
  -2147483648 ≤ value ∧ value ≤ 2147483647

instance (value : Int) : Decidable (IsArgumentValue value) :=
  inferInstanceAs (Decidable (_ ∧ _))

/-- The value of a numeric argument: an integer in its range. -/
def readArgumentValue? (text : List Char) : Option Int :=
  (readInteger? text).filter fun value => IsArgumentValue value

end Galley
