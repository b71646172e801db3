/-!
Decimal numbers, and whether they lie within the range of double precision.
-/
namespace Paddock

/-- `digits` times ten to the power `exponent`. -/
structure Decimal where
  digits : Nat
  exponent : Int
deriving DecidableEq, Repr

namespace Decimal

/-- 2^1024 less half of the last step below it. From here on the nearest double is infinite. -/
def ceiling : Nat := Nat.pow 2 1024 - Nat.pow 2 970

/-- How many digits stand in front of the point. -/
def magnitude (d : Decimal) : Int := (Nat.toDigits 10 d.digits).length + d.exponent

/-- Whether the nearest double is infinite. -/
def isBeyondRange (d : Decimal) : Bool :=
  d.digits != 0 &&
    (309 < d.magnitude ||
      d.magnitude == 309 &&
        ceiling * Nat.pow 10 (-d.exponent).toNat ≤ d.digits * Nat.pow 10 d.exponent.toNat)

/-- The number of fifty-three binary digits that is nearest; of two, the even one. -/
def rounded (n : Nat) : Nat :=
  let drop := n.log2 - 52
  let kept := n >>> drop
  let lost := n - (kept <<< drop)
  let half := (1 <<< drop) / 2
  if half < lost ∨ (0 < half ∧ lost = half ∧ kept % 2 = 1) then (kept + 1) <<< drop
  else kept <<< drop

/-- The same number without the last digits, so that the others fit into sixty-four bits. -/
def cut (digits : Nat) (exponent : Int) : Decimal :=
  if digits < 18446744073709551616 then ⟨digits, exponent⟩ else cut (digits / 10) (exponent + 1)
termination_by digits

/-- Whether the product of the two doubles nearest to the digits and to the power of ten is
infinite, the digits having been cut. -/
def isBeyondProduct (d : Decimal) : Bool :=
  let c := cut d.digits d.exponent
  c.digits != 0 &&
    (308 < c.exponent ||
      0 ≤ c.exponent && ceiling ≤ rounded c.digits * rounded (Nat.pow 10 c.exponent.toNat))

end Decimal

end Paddock
