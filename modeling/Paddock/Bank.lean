import Paddock.Amount
import Paddock.Change
import Paddock.Json.Keyed

/-!
The bank: balances of accounts, the treasury, and all that was ever issued. Transfers are prepared
against the present balances and applied later, all at once.
-/
namespace Paddock

/-- Where currency lies. -/
inductive Pot where
  | treasury
  | account (id : AccountId)
deriving DecidableEq, Repr

instance : Key Pot where
  rank
    | .treasury => 0
    | .account id => Key.rank id + 1
  rank_inj {a b} h := by
    cases a <;> cases b <;> simp_all [Key.rank_eq_iff]

structure Transfer where
  source : Pot
  target : Pot
  amount : Amount
deriving DecidableEq, Repr

inductive BankError where
  | insufficientFunds (account : AccountId) (needed available : Amount)
  | insufficientTreasury (requested available : Amount)
  | arithmeticOverflow
deriving DecidableEq, Repr

def BankError.message : BankError → String
  | insufficientFunds account needed available =>
    s!"insufficient funds in {account}: needed {needed}, available {available}"
  | insufficientTreasury requested available =>
    s!"treasury holds {available}, cannot withdraw {requested}"
  | arithmeticOverflow => "arithmetic overflow"

structure Bank where
  balances : Table AccountId Amount
  treasury : Amount
  totalIssued : Amount
deriving DecidableEq

/-- The balances that some pots will have. -/
abbrev Prepared := Table Pot Amount

namespace Bank

def empty : Bank := ⟨Table.empty, 0, 0⟩

def balance (b : Bank) (account : AccountId) : Amount := (b.balances.get? account).getD 0

def potBalance (b : Bank) : Pot → Amount
  | .treasury => b.treasury
  | .account id => b.balance id

def checkedAdd (a b : Amount) : Except BankError Amount :=
  match a.add? b with
  | some sum => .ok sum
  | none => .error .arithmeticOverflow

/-- Issues new currency to an account. Both sums are taken before the first of them is written. -/
def depositInPlace (account : AccountId) (amount : Amount) : Change BankError Bank Amount := do
  let balance ← .check fun b => checkedAdd (b.balance account) amount
  let totalIssued ← .check fun b => checkedAdd b.totalIssued amount
  modify fun b => { b with balances := b.balances.insert account balance }
  modify fun b => { b with totalIssued }
  return balance

def deposit (b : Bank) (account : AccountId) (amount : Amount) : Except BankError (Amount × Bank) :=
  (depositInPlace account amount).outcome b

def ensureFunds (b : Bank) (account : AccountId) (amount : Amount) : Except BankError Unit :=
  let available := b.balance account
  if available < amount then .error (.insufficientFunds account amount available) else .ok ()

/-- The balance of a pot after the transfers prepared so far. -/
def preparedBalance (b : Bank) (prepared : Prepared) (pot : Pot) : Amount :=
  (prepared.get? pot).getD (b.potBalance pot)

def overdrawn (pot : Pot) (amount available : Amount) : BankError :=
  match pot with
  | .account id => .insufficientFunds id amount available
  | .treasury => .insufficientTreasury amount available

/-- One more transfer: the source is debited before the target is looked at. -/
def prepareOne (b : Bank) (prepared : Prepared) (t : Transfer) : Except BankError Prepared := do
  let available := b.preparedBalance prepared t.source
  match available.sub? t.amount with
  | none => throw (overdrawn t.source t.amount available)
  | some debited =>
    let prepared := prepared.insert t.source debited
    let credited ← checkedAdd (b.preparedBalance prepared t.target) t.amount
    return prepared.insert t.target credited

def prepare (b : Bank) (transfers : List Transfer) : Except BankError Prepared :=
  transfers.foldlM b.prepareOne Table.empty

/-- An account whose balance becomes zero has no entry left. -/
def setBalance (b : Bank) (entry : Pot × Amount) : Bank :=
  match entry with
  | (.treasury, amount) => { b with treasury := amount }
  | (.account id, amount) =>
    if amount = 0 then { b with balances := b.balances.erase id }
    else { b with balances := b.balances.insert id amount }

def commit (b : Bank) (prepared : Prepared) : Bank :=
  prepared.entries.foldl setBalance b

/-- All balances and the treasury, if the sum is in range. -/
def circulating? (b : Bank) : Option Amount :=
  b.balances.values.foldlM Amount.add? b.treasury

end Bank

open Json

instance : Encode Bank where
  encode b := .object [
    ("balances", encode b.balances),
    ("treasury", encode b.treasury),
    ("total_issued", encode b.totalIssued)]

instance : Decode Bank where
  decode? j :=
    match fields? [["balances"], ["treasury"], ["total_issued"]] j with
    | some [balances, treasury, totalIssued] => do
      let balances ← required balances
      let treasury ← required treasury
      let totalIssued ← required totalIssued
      return ⟨balances, treasury, totalIssued⟩
    | _ => none

end Paddock
