import Paddock.Car.Registry
import Paddock.Change

/-!
Cars and parts together. Whatever fills or empties a slot also marks the part. The two registries
are changed one after the other, in place: `equipInPlace` and the like are the operations, `equip`
and the like their outcomes where they succeed.
-/
namespace Paddock

structure Garage where
  parts : PartRegistry
  cars : CarRegistry
deriving DecidableEq

/-- A part and the slot that it is in. -/
structure SlotPart where
  slot : PartType
  part : Part
deriving DecidableEq

structure CarMetadata where
  car : CarId
  owner : AccountId
  image : String
  parts : List SlotPart
  stats : CarStats
deriving DecidableEq

namespace Garage

def inParts {α : Type} (x : Change PartError PartRegistry α) : Change CarError Garage α :=
  x.within parts (fun g parts => { g with parts }) .parts

/-! ### Minting -/

def place (slots : PerType (Option PartSpec)) (spec : PartSpec) :
    Except CarError (PerType (Option PartSpec)) :=
  match slots.get spec.kind with
  | some _ => .error (.invalidComposition (.duplicate spec.kind))
  | none => .ok (slots.set spec.kind (some spec))

/-- One spec for each slot, wherever it stood in the list. -/
def arrange (specs : List PartSpec) : Except CarError (PerType PartSpec) := do
  if specs.length ≠ PartType.all.length then throw (.invalidComposition (.wrongCount specs.length))
  let slots ← specs.foldlM place (.replicate none)
  match slots with
  | ⟨some engine, some transmission, some wheels⟩ => return ⟨engine, transmission, wheels⟩
  | ⟨none, _, _⟩ => throw (.invalidComposition (.missing .engine))
  | ⟨_, none, _⟩ => throw (.invalidComposition (.missing .transmission))
  | ⟨_, _, none⟩ => throw (.invalidComposition (.missing .wheels))

/-- Whether a car could be minted from these specs; they are given back by slot. -/
def validateMint (g : Garage) (specs : List PartSpec) : Except CarError (PerType PartSpec) := do
  let arranged ← arrange specs
  (arranged.toList.forM g.parts.validateSpec : Except PartError Unit)
  let _ ← g.cars.nextId
  return arranged

/-- Mints a car with three new parts in its slots. -/
def mintInPlace (owner : AccountId) (image : String) (specs : List PartSpec) :
    Change CarError Garage CarId := do
  let arranged ← .check (·.validateMint specs)
  let car ← .check (·.cars.nextId)
  let ids ← inParts (PartRegistry.mintBatchInPlace owner (arranged.toList.map (·, some car)))
  let slots : PerType (Option PartId) := ⟨ids[0]?, ids[1]?, ids[2]?⟩
  modify fun g => { g with cars := g.cars.addCar car owner image slots }
  return car

def mintCar (g : Garage) (owner : AccountId) (image : String) (specs : List PartSpec) :
    Except CarError (CarId × Garage) :=
  (mintInPlace owner image specs).outcome g

/-! ### Slots -/

def setSlot (g : Garage) (id : CarId) (car : Car) (slot : PartType) (part : Option PartId) : Garage :=
  { g with cars := g.cars.put id { car with slots := car.slots.set slot part } }

/-- Writes one slot of a car, which has to be there. -/
def writeSlot (id : CarId) (slot : PartType) (part : Option PartId) : Change CarError Garage Unit := do
  let car ← .check (·.cars.get id)
  modify (·.setSlot id car slot part)

/-- Marks a part as being on a car, or as loose. -/
def markPart (part : PartId) (car : Option CarId) : Change CarError Garage Unit :=
  inParts (PartRegistry.setEquippedInPlace part car)

/-- Whether a loose part of the caller fits an empty slot on a car of the caller; gives the kind of
the slot. -/
def checkEquip (g : Garage) (caller : AccountId) (carId : CarId) (partId : PartId) (slot : Nat) :
    Except CarError PartType := do
  let some kind := PartType.ofSlot? slot | throw (.invalidSlot slot)
  let car ← g.cars.ensureOwner carId caller
  let part ← g.parts.ensureOwner partId caller
  if part.isEquipped then throw (.parts (.alreadyEquipped partId))
  if part.kind ≠ kind then throw (.typeMismatch kind part.kind)
  if (car.slots.get kind).isSome then throw (.slotOccupied carId kind)
  return kind

/-- Puts a loose part of the caller into the empty slot of its kind on a car of the caller. -/
def equipInPlace (caller : AccountId) (carId : CarId) (partId : PartId) (slot : Nat) :
    Change CarError Garage Unit := do
  let kind ← .check (·.checkEquip caller carId partId slot)
  markPart partId (some carId)
  writeSlot carId kind (some partId)

def equip (g : Garage) (caller : AccountId) (carId : CarId) (partId : PartId) (slot : Nat) :
    Except CarError Garage :=
  ((equipInPlace caller carId partId slot).outcome g).map Prod.snd

/-- Empties a slot, whoever asks, and gives back the part that it held. -/
def releaseInPlace (carId : CarId) (slot : PartType) : Change CarError Garage (Option PartId) := do
  let car ← .check (·.cars.get carId)
  match car.slots.get slot with
  | none => return none
  | some part => do
    markPart part none
    writeSlot carId slot none
    return some part

/-- The same by the number of the slot. -/
def release (g : Garage) (carId : CarId) (slot : Nat) : Except CarError (Option PartId × Garage) :=
  match PartType.ofSlot? slot with
  | some kind => (releaseInPlace carId kind).outcome g
  | none => .error (.invalidSlot slot)

/-- The slot of a car of the caller that a part is in. -/
def slotHolding (g : Garage) (caller : AccountId) (carId : CarId) (partId : PartId) :
    Except CarError PartType := do
  let car ← g.cars.ensureOwner carId caller
  let some slot := car.slotOf? partId | throw (.notEquipped carId partId)
  return slot

/-- Takes a part off a car of the caller, whoever owns the part. -/
def unequipInPlace (caller : AccountId) (carId : CarId) (partId : PartId) :
    Change CarError Garage Unit := do
  let slot ← .check (·.slotHolding caller carId partId)
  let _ ← releaseInPlace carId slot

def unequip (g : Garage) (caller : AccountId) (carId : CarId) (partId : PartId) :
    Except CarError Garage :=
  ((unequipInPlace caller carId partId).outcome g).map Prod.snd

/-- Whether a loose part of the caller can take the place of one on a car of the caller; gives the
slot. -/
def checkReplace (g : Garage) (caller : AccountId) (carId : CarId) (old new : PartId) :
    Except CarError PartType := do
  let slot ← g.slotHolding caller carId old
  let kind ← g.parts.kindOf old
  let incoming ← g.parts.ensureOwner new caller
  if incoming.isEquipped then throw (.parts (.alreadyEquipped new))
  if incoming.kind ≠ kind then throw (.typeMismatch kind incoming.kind)
  return slot

/-- Puts a loose part of the caller in the place of one of the same kind. The slot is never empty. -/
def replaceInPlace (caller : AccountId) (carId : CarId) (old new : PartId) :
    Change CarError Garage Unit := do
  let slot ← .check (·.checkReplace caller carId old new)
  markPart old none
  markPart new (some carId)
  writeSlot carId slot (some new)

def replace (g : Garage) (caller : AccountId) (carId : CarId) (old new : PartId) :
    Except CarError Garage :=
  ((replaceInPlace caller carId old new).outcome g).map Prod.snd

/-! ### Queries -/

/-- The part in each slot of a car. -/
def slotParts (g : Garage) (car : Car) : Except CarError (PerType (Option Part)) := do
  let part? : Option PartId → Except CarError (Option Part)
    | none => return none
    | some id => some <$> (g.parts.get id : Except PartError Part)
  return ⟨← part? car.slots.engine, ← part? car.slots.transmission, ← part? car.slots.wheels⟩

def carStats (g : Garage) (car : Car) (parts : PerType (Option Part)) : CarStats :=
  let nominal := DrivingStats.nominal (parts.map (·.map Part.spec))
  ⟨car.image, nominal.scaled car.condition g.cars.maxCondition, car.condition⟩

def stats (g : Garage) (id : CarId) : Except CarError CarStats := do
  let car ← g.cars.get id
  let parts ← g.slotParts car
  return g.carStats car parts

def metadata (g : Garage) (id : CarId) : Except CarError CarMetadata := do
  let car ← g.cars.get id
  let parts ← g.slotParts car
  return {
    car := id
    owner := car.owner
    image := car.image
    parts := PartType.all.filterMap fun t => (parts.get t).map (⟨t, ·⟩)
    stats := g.carStats car parts }

/-- The metadata of every car of an owner, by number. -/
def allMetadata (g : Garage) (owner : AccountId) : Except CarError (List CarMetadata) :=
  (g.cars.ownerCars owner).mapM g.metadata

end Garage

open Json

instance : Encode SlotPart where
  encode s := .object [("slot_index", encode s.slot.slot), ("part", encode s.part)]

instance : Encode CarMetadata where
  encode m := .object [
    ("car_id", encode m.car),
    ("owner", encode m.owner),
    ("image_uri", encode m.image),
    ("parts", encode m.parts),
    ("total_stats", encode m.stats)]

end Paddock
