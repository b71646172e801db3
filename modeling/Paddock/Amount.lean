import Paddock.Json.Decode

/-!
Amounts of currency in its smallest unit, below 2^128.
-/
namespace Paddock

/-- The bound of all amounts, 2^128. -/
abbrev amountBound : Nat := 340282366920938463463374607431768211456

structure Amount where
  toNat : Nat
  isLt : toNat < amountBound
deriving DecidableEq, Repr

namespace Amount

theorem ext {a b : Amount} (h : a.toNat = b.toNat) : a = b := by
  cases a; cases b; simp_all

instance {n : Nat} : OfNat Amount n := ⟨⟨n % amountBound, Nat.mod_lt _ (by decide)⟩⟩

instance : Inhabited Amount := ⟨0⟩

instance : LT Amount := ⟨fun a b => a.toNat < b.toNat⟩

instance : DecidableLT Amount := fun a b => inferInstanceAs (Decidable (a.toNat < b.toNat))

instance : ToString Amount := ⟨fun a => toString a.toNat⟩

def ofNat? (n : Nat) : Option Amount :=
  if h : n < amountBound then some ⟨n, h⟩ else none

def ofUInt64 (n : UInt64) : Amount :=
  ⟨n.toNat, Nat.lt_of_lt_of_le n.toNat_lt (by decide)⟩

/-- The sum, if it is in range. -/
def add? (a b : Amount) : Option Amount := ofNat? (a.toNat + b.toNat)

/-- The difference, if there is enough. -/
def sub? (a b : Amount) : Option Amount :=
  if b.toNat ≤ a.toNat then some ⟨a.toNat - b.toNat, by have := a.isLt; omega⟩ else none

/-- The difference modulo 2^128. Nothing is asked of `b`: whoever subtracts has to know that it is not
more than `a`. -/
def sub (a b : Amount) : Amount :=
  ⟨(amountBound + a.toNat - b.toNat) % amountBound, Nat.mod_lt _ (by decide)⟩

instance : Sub Amount := ⟨sub⟩

theorem toNat_sub (a b : Amount) : (a - b).toNat = (amountBound + a.toNat - b.toNat) % amountBound :=
  rfl

theorem toNat_sub_of_le {a b : Amount} (h : b.toNat ≤ a.toNat) :
    (a - b).toNat = a.toNat - b.toNat := by
  have := a.isLt
  rw [toNat_sub, Nat.add_sub_assoc h, Nat.add_mod_left, Nat.mod_eq_of_lt (by omega)]

instance : Json.Encode Amount := ⟨fun a => .nat a.toNat⟩

instance : Json.Decode Amount where
  decode? j :=
    match j with
    | .integer n => if 0 ≤ n then ofNat? n.toNat else none
    | _ => none

end Amount

end Paddock
