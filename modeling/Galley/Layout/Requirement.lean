import Galley.Layout.Settings

/-! # Requirements on numbers

A number that sets a measure must be positive or at least not negative.
-/

namespace Galley

/-- A bound that a number has to keep. -/
inductive Requirement where
  | positive
  | nonNegative
deriving DecidableEq

/-- A number that breaks its requirement. -/
structure InvalidValue where
  value : Int
  requirement : Requirement
deriving DecidableEq

namespace Requirement

/-- Whether a number keeps the requirement. -/
def allows : Requirement → Int → Bool
  | positive, value => 0 < value
  | nonNegative, value => 0 ≤ value

/-- The number itself, if it keeps the requirement. -/
def check (requirement : Requirement) (value : Int) : Except InvalidValue Nat :=
  if requirement.allows value then .ok value.toNat else .error ⟨value, requirement⟩

/-- The requirement in words. -/
def describe : Requirement → String
  | positive => "a positive integer"
  | nonNegative => "a non-negative integer"

/-- A number that is allowed is not negative, so nothing is lost when its sign is dropped. -/
theorem check_eq_ok_iff {requirement : Requirement} {value : Int} {number : Nat} :
    requirement.check value = .ok number ↔ requirement.allows value ∧ value = number := by
  cases requirement <;> simp only [check, allows, decide_eq_true_eq] <;> split <;>
    simp <;> omega

end Requirement

/-- The requirement on the numbers that set a measure. -/
def Measure.requirement : Measure → Requirement
  | textWidth | textHeight => .positive
  | indentation | parIndentation | parSkip => .nonNegative

end Galley
