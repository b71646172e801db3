import Paddock.Cause
import Paddock.Ledger.Audit
import Paddock.Ledger.Config
import Paddock.Ledger.Journal
import Paddock.Leaderboard

/-!
The ledger: everything that it keeps, and how it begins.
-/
namespace Paddock

/-- Why a snapshot is not taken as a ledger. -/
inductive SnapshotFault where
  | journal (violations : Nat)
  | audit (first : Discrepancy)
deriving DecidableEq, Repr

def SnapshotFault.message : SnapshotFault → String
  | journal violations => s!"journal has {violations} violation(s)"
  | audit first => first.description

inductive LedgerError where
  | parts (error : PartError)
  | cars (error : CarError)
  | market (error : MarketError)
  | workshop (error : WorkshopError)
  | bank (error : BankError)
  | insufficientPayment (required attached : Amount)
  | unauthorized (account : AccountId)
  | invalidConfig (fault : ConfigFault)
  | unreadableSnapshot
  | corruptSnapshot (fault : SnapshotFault)
deriving DecidableEq, Repr

def LedgerError.cause : LedgerError → Cause
  | parts error => .ofText error.message
  | cars error => .ofText error.message
  | market error => .ofText error.message
  | workshop error => .ofText error.message
  | bank error => .ofText error.message
  | insufficientPayment required attached =>
    .ofText s!"insufficient payment: required {required}, attached {attached}"
  | unauthorized account => .ofText s!"{account} is not the ledger operator"
  | invalidConfig fault => .ofText s!"invalid configuration: {fault.message}"
  | unreadableSnapshot => ⟨"serialization error: ", some .json⟩
  | corruptSnapshot fault => .ofText s!"corrupt snapshot: {fault.message}"

def LedgerError.message (e : LedgerError) : String := e.cause.message

/-- The operator sets prices and appoints authorities. While the base URI is empty, a token's own
image stands for its metadata. -/
structure Ledger where
  operator : AccountId
  mintPrice : Amount
  baseUri : String
  garage : Garage
  market : Market
  workshop : Workshop
  leaderboard : Leaderboard
  bank : Bank
  journal : Journal
deriving DecidableEq

namespace Ledger

def genesis (hash : Hasher) (operator : AccountId) (config : LedgerConfig) :
    Except LedgerError Ledger := do
  config.validate.mapError .invalidConfig
  let market ← (Market.new hash config.feeBps).mapError .market
  return {
    operator
    mintPrice := .ofUInt64 config.mintPrice
    baseUri := ""
    garage := ⟨.new config.maxStat, .new config.maxCondition⟩
    market
    workshop := .new (.ofUInt64 config.repairPrice) config.repairAmount
    leaderboard := .empty
    bank := .empty
    journal := .empty }

/-- A token's metadata: the base with the number behind it, or the token's own image. -/
def uriOf (s : Ledger) (image : String) (number : UInt64) : String :=
  if s.baseUri.isEmpty then image else s!"{s.baseUri}{number.toNat}"

def carUri (s : Ledger) (id : CarId) : Except LedgerError String := do
  let car ← (s.garage.cars.get id).mapError .cars
  return s.uriOf car.image id.number

def partUri (s : Ledger) (id : PartId) : Except LedgerError String := do
  let part ← (s.garage.parts.get id).mapError .parts
  return s.uriOf part.spec.image id.number

def audit (s : Ledger) : AuditReport := Paddock.audit s.garage s.bank

end Ledger

end Paddock
