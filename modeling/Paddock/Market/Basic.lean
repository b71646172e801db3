import Paddock.Garage
import Paddock.Market.Listing

/-!
The market: one listing at most for each car, a fee, and the account that sellers approve so that a
sale can move what they sell. A purchase is planned against the present state and then settled.
-/
namespace Paddock

/-- A token that the market needs authority over. -/
inductive Asset where
  | car (id : CarId)
  | part (id : PartId)
deriving DecidableEq, Repr

instance : ToString Asset where
  toString
    | .car id => toString id
    | .part id => toString id

inductive MarketError where
  | listingNotFound (car : CarId)
  | listingInactive (car : CarId)
  | alreadyListed (car : CarId)
  | notOwner (asset : Asset) (account : AccountId)
  | notEquipped (car : CarId) (slot : PartType)
  | bundleChanged (car : CarId) (slot : PartType)
  | transferNotApproved (asset : Asset)
  | insufficientPayment (required attached : Amount)
  | invalidPrice
  | invalidFee (bps : UInt16)
  | arithmeticOverflow
  | cars (error : CarError)
  | parts (error : PartError)
deriving DecidableEq, Repr

def MarketError.message : MarketError → String
  | listingNotFound car => s!"no listing for {car}"
  | listingInactive car => s!"listing for {car} is not active"
  | alreadyListed car => s!"{car} already has an active listing"
  | notOwner asset account => s!"{account} does not own {asset}"
  | notEquipped car slot => s!"slot {slot.slot} of {car} holds no part to bundle"
  | bundleChanged car slot =>
    s!"slot {slot.slot} of {car} no longer holds the part bundled at listing time"
  | transferNotApproved asset => s!"marketplace is not approved to transfer {asset}"
  | insufficientPayment required attached =>
    s!"insufficient payment: required {required}, attached {attached}"
  | invalidPrice => "listing price must be positive"
  | invalidFee bps => s!"protocol fee {bps} bps exceeds 10000"
  | arithmeticOverflow => "arithmetic overflow"
  | cars error => error.message
  | parts error => error.message

instance : MonadLift (Except CarError) (Except MarketError) := ⟨Except.mapError .cars⟩

instance : MonadLift (Except PartError) (Except MarketError) := ⟨Except.mapError .parts⟩

/-- Whether the market may move a car, the part in each selected slot, and all of them. A selected
slot that is empty is not approved. -/
structure ApprovalStatus where
  car : Bool
  parts : PerType (Option Bool)
  all : Bool
deriving DecidableEq, Repr

/-- A purchase that was found possible: what each side pays and gets, the parts that go with the
car, and the slots whose parts stay behind. -/
structure PurchasePlan where
  car : CarId
  seller : AccountId
  buyer : AccountId
  price : Amount
  fee : Amount
  proceeds : Amount
  refund : Amount
  bundled : List PartId
  released : List PartType
deriving DecidableEq, Repr

structure Market where
  account : AccountId
  feeBps : UInt16
  listings : Table CarId Listing
deriving DecidableEq

/-- A fee of ten thousand basis points is the whole price. -/
def maxFeeBps : UInt16 := 10000

namespace Market

/-- No listings and no fee. -/
def empty (hash : Hasher) : Market := ⟨AccountId.service hash "marketplace", 0, Table.empty⟩

def setFeeInPlace (bps : UInt16) : Change MarketError Market Unit :=
  if maxFeeBps < bps then throw (.invalidFee bps) else modify fun m => { m with feeBps := bps }

def setFee (m : Market) (bps : UInt16) : Except MarketError Market :=
  ((setFeeInPlace bps).outcome m).map Prod.snd

def new (hash : Hasher) (bps : UInt16) : Except MarketError Market := (empty hash).setFee bps

/-- The whole part of `price * fee / 10000`, if the product is in range. -/
def feeFor (m : Market) (price : Amount) : Except MarketError Amount :=
  if h : price.toNat * m.feeBps.toNat < amountBound then
    .ok ⟨price.toNat * m.feeBps.toNat / maxFeeBps.toNat,
      Nat.lt_of_le_of_lt (Nat.div_le_self _ _) h⟩
  else .error .arithmeticOverflow

def listing? (m : Market) (car : CarId) : Option Listing := m.listings.get? car

def isListed (m : Market) (car : CarId) : Bool := (m.listing? car).any Listing.isActive

def activeListings (m : Market) : List Listing := m.listings.values.filter Listing.isActive

/-! ### Listing -/

/-- The part in one slot, where the slot is to be included: it has to be there and the seller's. -/
def bundlePart (g : Garage) (seller : AccountId) (carId : CarId) (car : Car)
    (included : PerType Bool) (slot : PartType) : Except MarketError (Option PartId) := do
  if !included.get slot then return none
  match car.slots.get slot with
  | none => throw (.notEquipped carId slot)
  | some part =>
    let owner ← g.parts.ownerOf part
    if owner = seller then return some part else throw (.notOwner (.part part) seller)

/-- What the caller offers: a car with the parts in the included slots, not yet on offer. -/
def checkList (m : Market) (g : Garage) (caller : AccountId) (carId : CarId) (price : Amount)
    (included : PerType Bool) : Except MarketError Listing := do
  if price = 0 then throw .invalidPrice
  let car ← g.cars.get carId
  if car.owner ≠ caller then throw (.notOwner (.car carId) caller)
  if m.isListed carId then throw (.alreadyListed carId)
  let engine ← bundlePart g caller carId car included .engine
  let transmission ← bundlePart g caller carId car included .transmission
  let wheels ← bundlePart g caller carId car included .wheels
  return ⟨carId, caller, price, included, ⟨engine, transmission, wheels⟩, .active⟩

/-- Offers a car of the caller with the parts in the included slots. -/
def listInPlace (g : Garage) (caller : AccountId) (carId : CarId) (price : Amount)
    (included : PerType Bool) : Change MarketError Market Unit := do
  let listing ← .check (·.checkList g caller carId price included)
  modify fun m => { m with listings := m.listings.insert carId listing }

def list (m : Market) (g : Garage) (caller : AccountId) (carId : CarId) (price : Amount)
    (included : PerType Bool) : Except MarketError Market :=
  ((listInPlace g caller carId price included).outcome m).map Prod.snd

def setState (m : Market) (car : CarId) (listing : Listing) (state : ListingState) : Market :=
  { m with listings := m.listings.insert car { listing with state } }

/-- Whether the caller may withdraw a listing, which has to be active; gives the listing. -/
def checkCancel (m : Market) (caller : AccountId) (car : CarId) : Except MarketError Listing := do
  let some listing := m.listing? car | throw (.listingNotFound car)
  if !listing.isActive then throw (.listingInactive car)
  if listing.seller ≠ caller then throw (.notOwner (.car car) caller)
  return listing

/-- The seller withdraws an active listing. -/
def cancelInPlace (caller : AccountId) (car : CarId) : Change MarketError Market Unit := do
  let listing ← .check (·.checkCancel caller car)
  modify (·.setState car listing .cancelled)

def cancel (m : Market) (caller : AccountId) (car : CarId) : Except MarketError Market :=
  ((cancelInPlace caller car).outcome m).map Prod.snd

/-- Cancels the listing of a car that changed hands outside the market, if it is active. -/
def invalidate (m : Market) (car : CarId) : Market :=
  match m.listing? car with
  | some listing => if listing.isActive then m.setState car listing .cancelled else m
  | none => m

/-! ### Approvals -/

def partApproved (m : Market) (g : Garage) (car : Car) (selected : PerType Bool) (slot : PartType) :
    Except MarketError (Option Bool) := do
  if !selected.get slot then return none
  match car.slots.get slot with
  | some part => return some (← g.parts.isAuthorized part m.account)
  | none => return some false

def approvalStatus (m : Market) (g : Garage) (carId : CarId) (selected : PerType Bool) :
    Except MarketError ApprovalStatus := do
  let car ← g.cars.get carId
  let approved ← g.cars.isAuthorized carId m.account
  let engine ← m.partApproved g car selected .engine
  let transmission ← m.partApproved g car selected .transmission
  let wheels ← m.partApproved g car selected .wheels
  let parts : PerType (Option Bool) := ⟨engine, transmission, wheels⟩
  return ⟨approved, parts, approved && parts.toList.all (·.getD true)⟩

/-! ### Buying -/

/-- One bundled part has to be where it was, the seller's still, and free for the market to move. -/
def checkBundled (m : Market) (g : Garage) (listing : Listing) (carId : CarId) (car : Car)
    (bundled : PartType × PartId) : Except MarketError PartId := do
  let (slot, part) := bundled
  match car.slots.get slot with
  | none => throw (.notEquipped carId slot)
  | some current => if current ≠ part then throw (.bundleChanged carId slot)
  let owner ← g.parts.ownerOf part
  if owner ≠ listing.seller then throw (.notOwner (.part part) listing.seller)
  let authorized ← g.parts.isAuthorized part m.account
  if authorized then return part else throw (.transferNotApproved (.part part))

/-- The slots whose parts do not go with the car. -/
def releasedSlots (listing : Listing) (car : Car) : List PartType :=
  PartType.all.filter fun t => !listing.included.get t && (car.slots.get t).isSome

/-- Looks at all that a purchase depends on. Of what was so when the listing was made, only the price
and the bundled parts count. -/
def plan (m : Market) (g : Garage) (buyer : AccountId) (carId : CarId) (payment : Amount) :
    Except MarketError PurchasePlan := do
  let some listing := m.listing? carId | throw (.listingNotFound carId)
  if !listing.isActive then throw (.listingInactive carId)
  if payment < listing.price then throw (.insufficientPayment listing.price payment)
  let car ← g.cars.get carId
  if car.owner ≠ listing.seller then throw (.notOwner (.car carId) listing.seller)
  let authorized ← g.cars.isAuthorized carId m.account
  if !authorized then throw (.transferNotApproved (.car carId))
  let bundled ← listing.bundled.mapM (m.checkBundled g listing carId car)
  let fee ← m.feeFor listing.price
  return {
    car := carId
    seller := listing.seller
    buyer
    price := listing.price
    fee
    proceeds := listing.price - fee
    refund := payment - listing.price
    bundled
    released := releasedSlots listing car }

/-- Empties some slots of a car. -/
def releaseAll (car : CarId) (slots : List PartType) : Change MarketError Garage Unit :=
  slots.forM fun slot => do
    let _ ← (Garage.releaseInPlace car slot).adaptExcept .cars

/-- Moves some parts from one owner to another. -/
def handParts (parts : List PartId) (seller buyer : AccountId) : Change MarketError Garage Unit :=
  parts.forM fun part =>
    (PartRegistry.transferInPlace part seller buyer).within Garage.parts (fun g parts => { g with parts }) .parts

/-- Moves what is sold: unsold parts are released, then the bundled parts and the car go to the
buyer. -/
def handOver (plan : PurchasePlan) : Change MarketError Garage Unit := do
  releaseAll plan.car plan.released
  handParts plan.bundled plan.seller plan.buyer
  (CarRegistry.transferInPlace plan.car plan.seller plan.buyer).within Garage.cars
    (fun g cars => { g with cars }) .cars

def markSettled (m : Market) (plan : PurchasePlan) : Market :=
  match m.listing? plan.car with
  | some listing => m.setState plan.car listing (.settled plan.buyer)
  | none => m

/-- Carries out a plan. A plan made against this very state does not fail; another may fail half
way, and then the listing stays as it was. -/
def settleInPlace (plan : PurchasePlan) : Change MarketError (Market × Garage) Unit := do
  .within Prod.snd (fun s g => (s.1, g)) id (handOver plan)
  modify fun s => (s.1.markSettled plan, s.2)

/-- Market and garage after a settlement, and what went wrong. -/
def settle (m : Market) (g : Garage) (plan : PurchasePlan) : Market × Garage × Option MarketError :=
  match settleInPlace plan (m, g) with
  | .ok _ (m', g') => (m', g', none)
  | .error e (m', g') => (m', g', some e)

end Market

open Json

instance : Encode ApprovalStatus where
  encode s := .object [
    ("car_approved", encode s.car),
    ("parts_approved", encode s.parts),
    ("all_approved", encode s.all)]

instance : Encode PurchasePlan where
  encode p := .object [
    ("car_id", encode p.car),
    ("seller", encode p.seller),
    ("buyer", encode p.buyer),
    ("price", encode p.price),
    ("fee", encode p.fee),
    ("seller_proceeds", encode p.proceeds),
    ("refund", encode p.refund),
    ("bundled", encode p.bundled),
    ("released", encode (p.released.map PartType.slot))]

instance : Encode Market where
  encode m := .object [
    ("account", encode m.account),
    ("fee_bps", encode m.feeBps),
    ("listings", encode m.listings)]

instance : Decode Market where
  decode? j :=
    match fields? [["account"], ["fee_bps"], ["listings"]] j with
    | some [account, feeBps, listings] => do
      let account ← required account
      let feeBps ← required feeBps
      let listings ← required listings
      return ⟨account, feeBps, listings⟩
    | _ => none

end Paddock
