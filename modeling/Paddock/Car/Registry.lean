import Paddock.Car.Stats

/-!
The registry of cars: every car with its owner, its condition and the parts in its slots, and for
every owner the cars it owns. Slots are filled and emptied in `Paddock.Garage`, together with the
registry of parts. As there, `wearInPlace` and the like are the operations, `wear` and the like their
outcomes where they succeed.
-/
namespace Paddock

structure Car where
  id : CarId
  owner : AccountId
  image : String
  condition : UInt8
  slots : PerType (Option PartId)
deriving DecidableEq, Repr

/-- The first slot that holds the part. -/
def Car.slotOf? (car : Car) (part : PartId) : Option PartType :=
  PartType.all.find? fun t => car.slots.get t == some part

/-- Why specs do not make up a car. -/
inductive CompositionFault where
  | wrongCount (count : Nat)
  | duplicate (kind : PartType)
  | missing (kind : PartType)
deriving DecidableEq, Repr

def CompositionFault.message : CompositionFault → String
  | wrongCount count => s!"expected 3 parts, got {count}"
  | duplicate kind => s!"duplicate {kind} part"
  | missing kind => s!"missing {kind} part"

inductive CarError where
  | carNotFound (car : CarId)
  | notOwner (car : CarId) (account : AccountId)
  | invalidComposition (fault : CompositionFault)
  | typeMismatch (expected found : PartType)
  | slotOccupied (car : CarId) (slot : PartType)
  | notEquipped (car : CarId) (part : PartId)
  | invalidSlot (slot : Nat)
  | idExhausted
  | parts (error : PartError)
deriving DecidableEq, Repr

def CarError.message : CarError → String
  | carNotFound car => s!"car not found: {car}"
  | notOwner car account => s!"{account} does not own {car}"
  | invalidComposition fault => s!"invalid composition: {fault.message}"
  | typeMismatch expected found => s!"type mismatch: slot takes {expected}, part is {found}"
  | slotOccupied car slot => s!"slot {slot.slot} of {car} is already occupied"
  | notEquipped car part => s!"{part} is not equipped to {car}"
  | invalidSlot slot => s!"slot index {slot} out of range"
  | idExhausted => "car id space exhausted"
  | parts error => error.message

instance : MonadLift (Except PartError) (Except CarError) := ⟨Except.mapError .parts⟩

/-- The slots of a car as they are now. -/
structure Composition where
  parts : PerType (Option PartId)
  image : String
  occupied : PerType Bool
deriving DecidableEq, Repr

structure CarRegistry where
  cars : Table CarId Car
  owners : Table AccountId (TokenIndex CarId)
  approvals : Approvals CarId
  lastId : UInt64
  maxCondition : UInt8
deriving DecidableEq

namespace CarRegistry

def new (maxCondition : UInt8) : CarRegistry :=
  ⟨Table.empty, Table.empty, Approvals.empty, 0, maxCondition⟩

def get (r : CarRegistry) (id : CarId) : Except CarError Car :=
  match r.cars.get? id with
  | some car => .ok car
  | none => .error (.carNotFound id)

def ensureOwner (r : CarRegistry) (id : CarId) (account : AccountId) : Except CarError Car := do
  let car ← r.get id
  if car.owner = account then return car else throw (.notOwner id account)

def put (r : CarRegistry) (id : CarId) (car : Car) : CarRegistry :=
  { r with cars := r.cars.insert id car }

/-- The number after the last one, while there is one. -/
def nextId (r : CarRegistry) : Except CarError CarId :=
  if r.lastId.toNat + 1 < UInt64.size then .ok ⟨r.lastId + 1⟩ else .error .idExhausted

def carsOf (r : CarRegistry) (owner : AccountId) : TokenIndex CarId :=
  (r.owners.get? owner).getD .empty

/-- Adds a new car in full condition. -/
def addCar (r : CarRegistry) (id : CarId) (owner : AccountId) (image : String)
    (slots : PerType (Option PartId)) : CarRegistry :=
  { r with
    lastId := id.number
    cars := r.cars.insert id ⟨id, owner, image, r.maxCondition, slots⟩
    owners := r.owners.insert owner ((r.carsOf owner).insert id) }

/-! ### Condition -/

/-- Lowers the condition, at most to zero. -/
def wearInPlace (id : CarId) (amount : UInt8) : Change CarError CarRegistry UInt8 := do
  let car ← .check (·.get id)
  let condition := UInt8.ofNat (car.condition.toNat - amount.toNat)
  modify (·.put id { car with condition })
  return condition

def wear (r : CarRegistry) (id : CarId) (amount : UInt8) : Except CarError (UInt8 × CarRegistry) :=
  (wearInPlace id amount).outcome r

/-- Raises the condition, at most to the greatest. -/
def restoreInPlace (id : CarId) (amount : UInt8) : Change CarError CarRegistry UInt8 := do
  let car ← .check (·.get id)
  modifyGet fun r =>
    let condition := UInt8.ofNat (min (car.condition.toNat + amount.toNat) r.maxCondition.toNat)
    (condition, r.put id { car with condition })

def restore (r : CarRegistry) (id : CarId) (amount : UInt8) :
    Except CarError (UInt8 × CarRegistry) :=
  (restoreInPlace id amount).outcome r

/-! ### Ownership -/

/-- Takes a car out of what an owner has; an owner left with none has no entry. -/
def dropCar (r : CarRegistry) (owner : AccountId) (id : CarId) : Table AccountId (TokenIndex CarId) :=
  match r.owners.get? owner with
  | none => r.owners
  | some index =>
    let rest := index.remove id
    if rest.isEmpty then r.owners.erase owner else r.owners.insert owner rest

/-- Hands a car to another owner and ends its approval. Its parts stay as they are. -/
def give (r : CarRegistry) (id : CarId) (car : Car) (target : AccountId) : CarRegistry :=
  let owners := r.dropCar car.owner id
  { r with
    cars := r.cars.insert id { car with owner := target }
    owners := owners.insert target (((owners.get? target).getD .empty).insert id)
    approvals := r.approvals.clear id }

/-- Moves a car from one owner to another. -/
def transferInPlace (id : CarId) (source target : AccountId) : Change CarError CarRegistry Unit := do
  let car ← .check (·.ensureOwner id source)
  if source = target then return ()
  else modify (·.give id car target)

def transfer (r : CarRegistry) (id : CarId) (source target : AccountId) :
    Except CarError CarRegistry :=
  ((transferInPlace id source target).outcome r).map Prod.snd

/-- Whether someone may move a car; gives the owner. -/
def checkTransfer (r : CarRegistry) (caller : AccountId) (id : CarId) : Except CarError AccountId := do
  let car ← r.get id
  if r.approvals.isAuthorized car.owner id caller then return car.owner
  else throw (.notOwner id caller)

/-- Moves a car at the wish of someone who may move it. -/
def transferFromInPlace (caller : AccountId) (id : CarId) (target : AccountId) :
    Change CarError CarRegistry Unit := do
  let owner ← .check (·.checkTransfer caller id)
  transferInPlace id owner target

def transferFrom (r : CarRegistry) (caller : AccountId) (id : CarId) (target : AccountId) :
    Except CarError CarRegistry :=
  ((transferFromInPlace caller id target).outcome r).map Prod.snd

/-- The owner and the owner's operators decide who else may move a car. -/
def checkApprove (r : CarRegistry) (caller : AccountId) (id : CarId) : Except CarError Unit := do
  let car ← r.get id
  if caller = car.owner ∨ r.approvals.isOperator car.owner caller then return ()
  else throw (.notOwner id caller)

def approveInPlace (caller : AccountId) (id : CarId) (account : Option AccountId) :
    Change CarError CarRegistry Unit := do
  Change.check (·.checkApprove caller id)
  modify fun r => { r with approvals := r.approvals.approve id account }

def approve (r : CarRegistry) (caller : AccountId) (id : CarId) (account : Option AccountId) :
    Except CarError CarRegistry :=
  ((approveInPlace caller id account).outcome r).map Prod.snd

def setOperator (r : CarRegistry) (owner operator : AccountId) (approved : Bool) : CarRegistry :=
  { r with approvals := r.approvals.setOperator owner operator approved }

def isAuthorized (r : CarRegistry) (id : CarId) (account : AccountId) : Except CarError Bool := do
  let car ← r.get id
  return r.approvals.isAuthorized car.owner id account

/-! ### Queries -/

def ownerOf (r : CarRegistry) (id : CarId) : Except CarError AccountId :=
  (r.get id).map Car.owner

def lastCar? (r : CarRegistry) : Option CarId :=
  if r.lastId = 0 then none else some ⟨r.lastId⟩

def size (r : CarRegistry) : Nat := r.cars.size

/-- The cars of an owner by number. -/
def ownerCars (r : CarRegistry) (owner : AccountId) : List CarId :=
  (r.carsOf owner).items.mergeSort fun a b => a.number ≤ b.number

def composition (r : CarRegistry) (id : CarId) : Except CarError Composition := do
  let car ← r.get id
  return ⟨car.slots, car.image, car.slots.map Option.isSome⟩

end CarRegistry

/-! ### As JSON -/

open Json

instance : Encode Car where
  encode c := .object [
    ("id", encode c.id),
    ("owner", encode c.owner),
    ("image_uri", encode c.image),
    ("condition", encode c.condition),
    ("slots", encode c.slots)]

instance : Decode Car where
  decode? j :=
    match fields? [["id"], ["owner"], ["image_uri"], ["condition"], ["slots"]] j with
    | some [id, owner, image, condition, slots] => do
      let id ← required id
      let owner ← required owner
      let image ← required image
      let condition ← required condition
      let slots ← required slots
      return ⟨id, owner, image, condition, slots⟩
    | _ => none

instance : Encode Composition where
  encode c := .object [
    ("part_ids", encode c.parts),
    ("image_uri", encode c.image),
    ("slot_occupied", encode c.occupied)]

instance : Encode CarRegistry where
  encode r := .object [
    ("cars", encode r.cars),
    ("owners", encode r.owners),
    ("approvals", encode r.approvals),
    ("last_id", encode r.lastId),
    ("max_condition", encode r.maxCondition)]

instance : Decode CarRegistry where
  decode? j :=
    match fields? [["cars"], ["owners"], ["approvals"], ["last_id"], ["max_condition"]] j with
    | some [cars, owners, approvals, lastId, maxCondition] => do
      let cars ← required cars
      let owners ← required owners
      let approvals ← required approvals
      let lastId ← required lastId
      let maxCondition ← required maxCondition
      return ⟨cars, owners, approvals, lastId, maxCondition⟩
    | _ => none

end Paddock
