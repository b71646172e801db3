/-!
Natural numbers below a bound, read from decimal digits that may follow a plus sign.
-/
namespace Paddock.Text

inductive NumeralFault where
  | empty
  | invalidDigit
  | tooLarge
deriving DecidableEq, Repr

def NumeralFault.message : NumeralFault → String
  | empty => "cannot parse integer from empty string"
  | invalidDigit => "invalid digit found in string"
  | tooLarge => "number too large to fit in target type"

/-- The first digit at which something is wrong decides the fault. -/
def addDigit (bound value : Nat) (c : Char) : Except NumeralFault Nat :=
  if '0' ≤ c ∧ c ≤ '9' then
    let next := value * 10 + (c.toNat - 48)
    if next < bound then .ok next else .error .tooLarge
  else .error .invalidDigit

def readNumeral (bound : Nat) (text : List Char) : Except NumeralFault Nat :=
  match text with
  | [] => .error .empty
  | ['+'] => .error .invalidDigit
  | '+' :: digits => digits.foldlM (addDigit bound) 0
  | digits => digits.foldlM (addDigit bound) 0

end Paddock.Text
