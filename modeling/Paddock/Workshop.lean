import Paddock.Amount
import Paddock.Car.Registry

/-!
The workshop: repairs for pay, and wear after races. Both change the registry of cars in place.
-/
namespace Paddock

inductive WorkshopError where
  | unauthorized (account : AccountId)
  | notOwner (car : CarId) (account : AccountId)
  | insufficientPayment (required attached : Amount)
  | cars (error : CarError)
deriving DecidableEq, Repr

def WorkshopError.message : WorkshopError → String
  | unauthorized account => s!"{account} is not authorized for this operation"
  | notOwner car account => s!"{account} does not own {car}"
  | insufficientPayment required attached =>
    s!"insufficient payment: required {required}, attached {attached}"
  | cars error => error.message

instance : MonadLift (Except CarError) (Except WorkshopError) := ⟨Except.mapError .cars⟩

/-- What a repair did and what it costs. -/
structure RepairReceipt where
  car : CarId
  before : UInt8
  after : UInt8
  charged : Amount
deriving DecidableEq, Repr

/-- Besides the operator, the authority may apply wear. -/
structure Workshop where
  repairPrice : Amount
  repairAmount : UInt8
  authority : Option AccountId
deriving DecidableEq, Repr

namespace Workshop

def new (repairPrice : Amount) (repairAmount : UInt8) : Workshop := ⟨repairPrice, repairAmount, none⟩

def isAuthorized (w : Workshop) (caller operator : AccountId) : Bool :=
  caller == operator || w.authority == some caller

/-- Whether a repair may go ahead. The whole payment is what it costs. -/
def checkRepair (w : Workshop) (cars : CarRegistry) (caller : AccountId) (id : CarId)
    (payment : Amount) : Except WorkshopError Amount := do
  let car ← cars.get id
  if car.owner ≠ caller then throw (.notOwner id caller)
  if payment < w.repairPrice then throw (.insufficientPayment w.repairPrice payment)
  return payment

def repairInPlace (w : Workshop) (caller : AccountId) (id : CarId) (payment : Amount) :
    Change WorkshopError CarRegistry RepairReceipt := do
  let charged ← .check (w.checkRepair · caller id payment)
  let car : Car ← .check fun cars => cars.get id
  let after ← (CarRegistry.restoreInPlace id w.repairAmount).adaptExcept .cars
  return ⟨id, car.condition, after, charged⟩

def repair (w : Workshop) (cars : CarRegistry) (caller : AccountId) (id : CarId)
    (payment : Amount) : Except WorkshopError (RepairReceipt × CarRegistry) :=
  (w.repairInPlace caller id payment).outcome cars

def wearInPlace (w : Workshop) (caller operator : AccountId) (id : CarId) (amount : UInt8) :
    Change WorkshopError CarRegistry UInt8 :=
  if w.isAuthorized caller operator then (CarRegistry.wearInPlace id amount).adaptExcept .cars
  else throw (.unauthorized caller)

def wear (w : Workshop) (cars : CarRegistry) (caller operator : AccountId) (id : CarId)
    (amount : UInt8) : Except WorkshopError (UInt8 × CarRegistry) :=
  (w.wearInPlace caller operator id amount).outcome cars

end Workshop

open Json

instance : Encode RepairReceipt where
  encode r := .object [
    ("car_id", encode r.car),
    ("condition_before", encode r.before),
    ("condition_after", encode r.after),
    ("charged", encode r.charged)]

instance : Encode Workshop where
  encode w := .object [
    ("repair_price", encode w.repairPrice),
    ("repair_amount", encode w.repairAmount),
    ("authority", encode w.authority)]

instance : Decode Workshop where
  decode? j :=
    match fields? [["repair_price"], ["repair_amount"], ["authority"]] j with
    | some [repairPrice, repairAmount, authority] => do
      let repairPrice ← required repairPrice
      let repairAmount ← required repairAmount
      let authority ← orNull authority
      return ⟨repairPrice, repairAmount, authority⟩
    | _ => none

end Paddock
