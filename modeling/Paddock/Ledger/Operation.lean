import Paddock.Ledger.Basic

/-!
Operations on the ledger. Each looks at what could go wrong, changes one component after the other
in place, and adds one event to the journal. Nothing is rolled back.
-/
namespace Paddock

inductive Operation where
  | deposit (account : AccountId) (amount : Amount)
  | withdraw (caller : AccountId) (amount : Option Amount)
  | mintCar (caller : AccountId) (request : MintRequest) (payment : Amount)
  | mintPart (caller owner : AccountId) (spec : PartSpec)
  | equip (caller : AccountId) (car : CarId) (part : PartId) (slot : UInt64)
  | unequip (caller : AccountId) (car : CarId) (part : PartId)
  | replace (caller : AccountId) (car : CarId) (old new : PartId)
  | transferPart (caller : AccountId) (part : PartId) (target : AccountId)
  | transferCar (caller : AccountId) (car : CarId) (target : AccountId)
  | approvePart (caller : AccountId) (part : PartId) (account : Option AccountId)
  | approveCar (caller : AccountId) (car : CarId) (account : Option AccountId)
  | approveAll (caller operator : AccountId) (approved : Bool)
  | list (caller : AccountId) (car : CarId) (price : Amount) (included : PerType Bool)
  | cancel (caller : AccountId) (car : CarId)
  | buy (buyer : AccountId) (car : CarId) (payment : Amount)
  | repair (caller : AccountId) (car : CarId) (payment : Amount)
  | wear (caller : AccountId) (car : CarId) (amount : UInt8)
  | race (caller : AccountId) (car : CarId) (score : UInt64)
  | setMintPrice (caller : AccountId) (price : Amount)
  | setRepairPrice (caller : AccountId) (price : Amount)
  | setFee (caller : AccountId) (bps : UInt16)
  | setAuthority (caller : AccountId) (role : Authority) (account : Option AccountId)
  | transferOperator (caller target : AccountId)
  | setBaseUri (caller : AccountId) (uri : String)
deriving DecidableEq, Repr

/-- What an operation answers. -/
inductive Reply where
  | done
  | amount (value : Amount)
  | car (id : CarId)
  | part (id : PartId)
  | condition (value : UInt8)
  | improved (value : Bool)
  | plan (value : PurchasePlan)
  | receipt (value : RepairReceipt)
deriving DecidableEq, Repr

namespace Ledger

variable (hash : Hasher) {α : Type}

/-- The ledger after one more event. -/
def record (s : Ledger) (event : Event) : Ledger :=
  { s with journal := s.journal.append hash event }

def ensureOperator (s : Ledger) (caller : AccountId) : Except LedgerError Unit :=
  if caller = s.operator then .ok () else .error (.unauthorized caller)

def prepare (s : Ledger) (transfers : List Transfer) : Except LedgerError Prepared :=
  (s.bank.prepare transfers).mapError .bank

/-! ### Changes of a component -/

def inBank (x : Change BankError Bank α) : Change LedgerError Ledger α :=
  x.within bank (fun s bank => { s with bank }) .bank

def inGarage (x : Change CarError Garage α) : Change LedgerError Ledger α :=
  x.within garage (fun s garage => { s with garage }) .cars

def inParts (x : Change PartError PartRegistry α) : Change LedgerError Ledger α :=
  x.within (·.garage.parts) (fun s parts => { s with garage := { s.garage with parts } }) .parts

def inCars (x : Change CarError CarRegistry α) : Change LedgerError Ledger α :=
  x.within (·.garage.cars) (fun s cars => { s with garage := { s.garage with cars } }) .cars

def inWorkshop (work : Ledger → Change WorkshopError CarRegistry α) : Change LedgerError Ledger α := do
  let s ← get
  (work s).within (·.garage.cars) (fun s cars => { s with garage := { s.garage with cars } }) .workshop

def inMarket (x : Change MarketError Market α) : Change LedgerError Ledger α :=
  x.within market (fun s market => { s with market }) .market

def commitFunds (prepared : Prepared) : Change LedgerError Ledger Unit :=
  modify fun s => { s with bank := s.bank.commit prepared }

/-- A change with its event. The entry is made from the journal as it is before the change. -/
def recorded (event : Event) (x : Change LedgerError Ledger α) : Change LedgerError Ledger α := do
  let entry := (← get).journal.prepare hash event
  let a ← x
  modify fun s => { s with journal := s.journal.commit entry }
  return a

/-! ### Currency -/

/-- Credits currency that comes from outside. -/
def deposit (account : AccountId) (amount : Amount) : Change LedgerError Ledger Amount :=
  recorded hash (.deposited account amount) (inBank (Bank.depositInPlace account amount))

/-- Moves currency from the treasury to the operator; all of it, where no amount is given. -/
def withdraw (caller : AccountId) (amount : Option Amount) : Change LedgerError Ledger Amount := do
  Change.check (·.ensureOperator caller)
  let amount := amount.getD (← get).bank.treasury
  let prepared ← .check (·.prepare [⟨.treasury, .account caller, amount⟩])
  recorded hash (.withdrawn caller amount) (commitFunds prepared)
  return amount

/-! ### Minting -/

def checkMintPrice (s : Ledger) (payment : Amount) : Except LedgerError Unit :=
  if payment < s.mintPrice then .error (.insufficientPayment s.mintPrice payment) else .ok ()

/-- Mints a car with three parts. The whole payment goes to the treasury. -/
def mintCar (caller : AccountId) (request : MintRequest) (payment : Amount) :
    Change LedgerError Ledger CarId := do
  Change.check (·.checkMintPrice payment)
  let _ ← .check fun s => (s.garage.validateMint request.parts).mapError .cars
  let prepared ← .check (·.prepare [⟨.account caller, .treasury, payment⟩])
  let car ← .check fun s => s.garage.cars.nextId.mapError .cars
  recorded hash (.carMinted car caller payment) do
    let minted ← inGarage (Garage.mintInPlace caller request.image request.parts)
    commitFunds prepared
    return minted

/-- The operator mints a loose part for someone. -/
def mintPart (caller owner : AccountId) (spec : PartSpec) : Change LedgerError Ledger PartId := do
  Change.check (·.ensureOperator caller)
  Change.check fun s => (s.garage.parts.validateSpec spec).mapError .parts
  let part ← .check fun s => s.garage.parts.nextId.mapError .parts
  recorded hash (.partMinted part owner spec.kind) (inParts (PartRegistry.mintInPlace owner spec none))

/-! ### Slots -/

def equip (caller : AccountId) (car : CarId) (part : PartId) (slot : UInt64) :
    Change LedgerError Ledger Unit :=
  recorded hash (.partEquipped car part slot)
    (inGarage (Garage.equipInPlace caller car part slot.toNat))

def unequip (caller : AccountId) (car : CarId) (part : PartId) : Change LedgerError Ledger Unit :=
  recorded hash (.partUnequipped car part) (inGarage (Garage.unequipInPlace caller car part))

def replace (caller : AccountId) (car : CarId) (old new : PartId) : Change LedgerError Ledger Unit :=
  recorded hash (.partReplaced car old new) (inGarage (Garage.replaceInPlace caller car old new))

/-! ### Ownership -/

/-- Moves a loose part; a part on a car moves only with a sale of the car. -/
def transferPart (caller : AccountId) (part : PartId) (target : AccountId) :
    Change LedgerError Ledger Unit := do
  let source ← .check fun s => (s.garage.parts.ownerOf part).mapError .parts
  recorded hash (.partTransferred part source target)
    (inParts (PartRegistry.transferFromInPlace caller part target))

/-- Moves a car without its parts, and cancels its listing. -/
def transferCar (caller : AccountId) (car : CarId) (target : AccountId) :
    Change LedgerError Ledger Unit := do
  let source ← .check fun s => (s.garage.cars.ownerOf car).mapError .cars
  recorded hash (.carTransferred car source target) do
    inCars (CarRegistry.transferFromInPlace caller car target)
    modify fun s => { s with market := s.market.invalidate car }

def approvePart (caller : AccountId) (part : PartId) (account : Option AccountId) :
    Change LedgerError Ledger Unit :=
  recorded hash (.partApproved part account) (inParts (PartRegistry.approveInPlace caller part account))

def approveCar (caller : AccountId) (car : CarId) (account : Option AccountId) :
    Change LedgerError Ledger Unit :=
  recorded hash (.carApproved car account) (inCars (CarRegistry.approveInPlace caller car account))

def setOperator (s : Ledger) (owner operator : AccountId) (approved : Bool) : Ledger :=
  { s with garage :=
      ⟨s.garage.parts.setOperator owner operator approved,
        s.garage.cars.setOperator owner operator approved⟩ }

/-- Approves an operator for all cars and parts of the caller, or ends that. -/
def approveAll (caller operator : AccountId) (approved : Bool) : Change LedgerError Ledger Unit :=
  recorded hash (.operatorApproval caller operator approved)
    (modify (·.setOperator caller operator approved))

/-! ### Market -/

def list (caller : AccountId) (car : CarId) (price : Amount) (included : PerType Bool) :
    Change LedgerError Ledger Unit :=
  recorded hash (.carListed car caller price included) do
    let s ← get
    inMarket (Market.listInPlace s.garage caller car price included)

def cancel (caller : AccountId) (car : CarId) : Change LedgerError Ledger Unit :=
  recorded hash (.listingCancelled car) (inMarket (Market.cancelInPlace caller car))

/-- The price goes to the seller, less the fee, which goes to the treasury. -/
def saleTransfers (plan : PurchasePlan) : List Transfer :=
  [⟨.account plan.buyer, .account plan.seller, plan.proceeds⟩,
    ⟨.account plan.buyer, .treasury, plan.fee⟩]

def saleEvent (plan : PurchasePlan) : Event :=
  .carSold plan.car plan.seller plan.buyer plan.price plan.fee plan.bundled

def settle (plan : PurchasePlan) : Change LedgerError Ledger Unit :=
  (Market.settleInPlace plan).within (fun s => (s.market, s.garage))
    (fun s t => { s with market := t.1, garage := t.2 }) .market

/-- Buys a listed car with the parts that go with it. The buyer has to have the whole payment, of
which only the price is taken. -/
def buy (buyer : AccountId) (car : CarId) (payment : Amount) :
    Change LedgerError Ledger PurchasePlan := do
  let plan ← .check fun s => (s.market.plan s.garage buyer car payment).mapError .market
  Change.check fun s => (s.bank.ensureFunds buyer payment).mapError .bank
  let prepared ← .check (·.prepare (saleTransfers plan))
  recorded hash (saleEvent plan) do
    settle plan
    commitFunds prepared
  return plan

/-! ### Workshop and leaderboard -/

/-- Repairs a car of the caller. The whole payment goes to the treasury. -/
def repair (caller : AccountId) (car : CarId) (payment : Amount) :
    Change LedgerError Ledger RepairReceipt := do
  let _ ← .check fun s =>
    (s.workshop.checkRepair s.garage.cars caller car payment).mapError .workshop
  let prepared ← .check (·.prepare [⟨.account caller, .treasury, payment⟩])
  recorded hash (.carRepaired car payment) do
    let receipt ← inWorkshop (·.workshop.repairInPlace caller car payment)
    commitFunds prepared
    return receipt

def wear (caller : AccountId) (car : CarId) (amount : UInt8) : Change LedgerError Ledger UInt8 :=
  recorded hash (.wearApplied car amount)
    (inWorkshop fun s => s.workshop.wearInPlace caller s.operator car amount)

/-- Records a race result, and says whether it is the car's best so far. -/
def race (caller : AccountId) (car : CarId) (score : UInt64) : Change LedgerError Ledger Bool :=
  recorded hash (.raceRecorded car score) do
    let s ← get
    (Leaderboard.recordInPlace s.garage.cars caller s.operator car score).within leaderboard
      (fun s leaderboard => { s with leaderboard }) .workshop

/-! ### The operator -/

/-- What only the operator may do. -/
def byOperator (caller : AccountId) (event : Event) (x : Change LedgerError Ledger Unit) :
    Change LedgerError Ledger Unit := do
  Change.check (·.ensureOperator caller)
  recorded hash event x

def setMintPrice (caller : AccountId) (price : Amount) : Change LedgerError Ledger Unit :=
  byOperator hash caller (.mintPriceSet price) (modify fun s => { s with mintPrice := price })

def setRepairPrice (caller : AccountId) (price : Amount) : Change LedgerError Ledger Unit :=
  byOperator hash caller (.repairPriceSet price)
    (modify fun s => { s with workshop := { s.workshop with repairPrice := price } })

def setFee (caller : AccountId) (bps : UInt16) : Change LedgerError Ledger Unit :=
  byOperator hash caller (.protocolFeeSet bps) (inMarket (Market.setFeeInPlace bps))

def appoint (s : Ledger) (role : Authority) (account : Option AccountId) : Ledger :=
  match role with
  | .workshop => { s with workshop := { s.workshop with authority := account } }
  | .leaderboard => { s with leaderboard := { s.leaderboard with authority := account } }

def setAuthority (caller : AccountId) (role : Authority) (account : Option AccountId) :
    Change LedgerError Ledger Unit :=
  byOperator hash caller (.authoritySet role account) (modify (·.appoint role account))

/-- The operator before keeps no rights. -/
def transferOperator (caller target : AccountId) : Change LedgerError Ledger Unit :=
  byOperator hash caller (.operatorTransferred caller target)
    (modify fun s => { s with operator := target })

def setBaseUri (caller : AccountId) (uri : String) : Change LedgerError Ledger Unit :=
  byOperator hash caller (.baseUriSet uri) (modify fun s => { s with baseUri := uri })

/-! ### Any operation -/

/-- An operation, in place. -/
def perform : Operation → Change LedgerError Ledger Reply
  | .deposit account amount => .amount <$> deposit hash account amount
  | .withdraw caller amount => .amount <$> withdraw hash caller amount
  | .mintCar caller request payment => .car <$> mintCar hash caller request payment
  | .mintPart caller owner spec => .part <$> mintPart hash caller owner spec
  | .equip caller car part slot => done <$> equip hash caller car part slot
  | .unequip caller car part => done <$> unequip hash caller car part
  | .replace caller car old new => done <$> replace hash caller car old new
  | .transferPart caller part target => done <$> transferPart hash caller part target
  | .transferCar caller car target => done <$> transferCar hash caller car target
  | .approvePart caller part account => done <$> approvePart hash caller part account
  | .approveCar caller car account => done <$> approveCar hash caller car account
  | .approveAll caller operator approved => done <$> approveAll hash caller operator approved
  | .list caller car price included => done <$> list hash caller car price included
  | .cancel caller car => done <$> cancel hash caller car
  | .buy buyer car payment => .plan <$> buy hash buyer car payment
  | .repair caller car payment => .receipt <$> repair hash caller car payment
  | .wear caller car amount => .condition <$> wear hash caller car amount
  | .race caller car score => .improved <$> race hash caller car score
  | .setMintPrice caller price => done <$> setMintPrice hash caller price
  | .setRepairPrice caller price => done <$> setRepairPrice hash caller price
  | .setFee caller bps => done <$> setFee hash caller bps
  | .setAuthority caller role account => done <$> setAuthority hash caller role account
  | .transferOperator caller target => done <$> transferOperator hash caller target
  | .setBaseUri caller uri => done <$> setBaseUri hash caller uri
where
  done (_ : Unit) : Reply := .done

/-- Carries out one operation. -/
def execute (s : Ledger) (operation : Operation) : Except LedgerError Reply × Ledger :=
  match perform hash operation s with
  | .ok reply s' => (.ok reply, s')
  | .error e s' => (.error e, s')

/-- Carries out operations one after the other, whatever each of them answers. -/
def run (s : Ledger) (operations : List Operation) : Ledger :=
  operations.foldl (fun s operation => (s.execute hash operation).2) s

end Ledger

end Paddock
