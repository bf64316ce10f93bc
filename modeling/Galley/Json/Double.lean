import Galley.Text.Numeral

/-! # Double precision

A number that is no integer of 64 bits is read in double precision. What is kept of it are the
leading digits that fit into 64 bits and a power of ten. Both are rounded to double precision and
then multiplied, so numbers close to the largest one may be rounded beyond it.
-/

namespace Galley.Json

/-- The number of double precision, which has 53 significant bits, that is nearest to a natural
number. Of two that are equally near it is the one whose last bit is zero. -/
def roundToDouble (number : Nat) : Nat :=
  let unit := Nat.pow 2 (Nat.log2 number - 52)
  let whole := number / unit
  let twice := 2 * (number % unit)
  if unit < twice ∨ twice = unit ∧ whole % 2 = 1 then (whole + 1) * unit else whole * unit

/-- Numbers from here on are rounded beyond the largest number of double precision. -/
def hugeFrom : Nat :=
  Nat.pow 2 1024 - Nat.pow 2 970

/-- Whether `digits * 10 ^ power` is beyond the range of double precision. Powers of more than 308
are out of range themselves, and those below one only make a number smaller. -/
def isHuge (digits : Nat) (power : Int) : Bool :=
  if digits = 0 || power < 1 then false
  else if 308 < power then true
  else hugeFrom ≤ roundToDouble digits * roundToDouble (Nat.pow 10 power.toNat)

end Galley.Json
