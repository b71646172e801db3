import Paddock.Bank
import Paddock.Garage

/-!
The audit: what the ledger keeps twice is compared, entry by entry. Slots are compared with the marks
on parts, the holdings of owners with the parts and cars they own, and the balances with what was
issued.
-/
namespace Paddock

inductive AuditKind where
  | slotExclusivity
  | equipFlag
  | partIndex
  | carIndex
  | conservation
deriving DecidableEq, Repr

def AuditKind.name : AuditKind → String
  | slotExclusivity => "SlotExclusivity"
  | equipFlag => "EquipFlag"
  | partIndex => "PartIndex"
  | carIndex => "CarIndex"
  | conservation => "Conservation"

/-- Something that does not agree with the rest. -/
inductive Discrepancy where
  | slottedTwice (part : PartId) (first second : CarId)
  | wrongSlot (part : PartId) (kind slot : PartType) (car : CarId)
  | slottedPartMissing (car : CarId) (part : PartId)
  | otherCarMarked (part : PartId) (car : CarId) (marked : Option CarId)
  | markedOnly (part : PartId)
  | partNotIndexed (part : PartId)
  | emptyHoldings (owner : AccountId)
  | equippedAndNot (owner : AccountId)
  | neitherEquippedNorNot (owner : AccountId)
  | wrongKind (owner : AccountId) (part : PartId) (kind : PartType)
  | kindCount (owner : AccountId) (counted expected : Nat)
  | foreignPart (part : PartId) (indexed actual : AccountId)
  | wrongSide (part : PartId) (owner : AccountId)
  | indexedPartMissing (owner : AccountId) (part : PartId)
  | carNotIndexed (car : CarId)
  | foreignCar (car : CarId) (indexed : AccountId)
  | wrongSum (sum issued : Amount)
  | sumOverflow
deriving DecidableEq, Repr

namespace Discrepancy

def kind : Discrepancy → AuditKind
  | slottedTwice .. | wrongSlot .. | slottedPartMissing .. => .slotExclusivity
  | otherCarMarked .. | markedOnly .. => .equipFlag
  | partNotIndexed .. | emptyHoldings .. | equippedAndNot .. | neitherEquippedNorNot ..
  | wrongKind .. | kindCount .. | foreignPart .. | wrongSide .. | indexedPartMissing .. => .partIndex
  | carNotIndexed .. | foreignCar .. => .carIndex
  | wrongSum .. | sumOverflow => .conservation

/-- How a mark is spelled out. -/
def markText : Option CarId → String
  | none => "None"
  | some car => s!"Some(CarId({car.number.toNat}))"

def description : Discrepancy → String
  | slottedTwice part first second => s!"{part} is slotted in both {first} and {second}"
  | wrongSlot part kind slot car => s!"{part} ({kind}) sits in slot {slot.slot} of {car}"
  | slottedPartMissing car part => s!"{car} references missing {part}"
  | otherCarMarked part car marked =>
    s!"{part} is slotted in {car} but equipped_to is {markText marked}"
  | markedOnly part => s!"{part} is marked equipped but no slot holds it"
  | partNotIndexed part => toString part ++ " is missing from its owner's index"
  | emptyHoldings owner => s!"{owner} has an empty index entry"
  | equippedAndNot owner => s!"{owner} has parts in both equipped and unequipped partitions"
  | neitherEquippedNorNot owner => s!"{owner}: equipped and unequipped do not partition all parts"
  | wrongKind owner part kind => s!"{owner}: {part} is listed under {kind}"
  | kindCount owner counted expected =>
    s!"{owner}: type partitions hold {counted} parts, expected {expected}"
  | foreignPart part indexed actual => s!"{part} is indexed under {indexed} but owned by {actual}"
  | wrongSide part owner => s!"{part} is in the wrong equip partition of {owner}"
  | indexedPartMissing owner part => s!"{owner} indexes missing {part}"
  | carNotIndexed car => toString car ++ " is missing from its owner's index"
  | foreignCar car indexed => s!"{car} is indexed under {indexed} but not owned by it"
  | wrongSum sum issued => s!"balances sum to {sum}, issued {issued}"
  | sumOverflow => "balance sum overflows"

end Discrepancy

structure AuditReport where
  partsChecked : Nat
  carsChecked : Nat
  discrepancies : List Discrepancy
deriving DecidableEq, Repr

def AuditReport.isValid (r : AuditReport) : Bool := r.discrepancies.isEmpty

/-- One discrepancy, if there is one. -/
def reportIf (condition : Bool) (d : Discrepancy) : List Discrepancy :=
  if condition then [d] else []

namespace Audit

/-! ### Slots -/

/-- Every slot that holds a part: the car, the slot, the part. -/
def slotted (cars : CarRegistry) : List (CarId × PartType × PartId) :=
  cars.cars.values.flatMap fun car =>
    PartType.all.filterMap fun t => (car.slots.get t).map (car.id, t, ·)

/-- A slotted part against its record. -/
def checkSlotted (parts : PartRegistry) (car : CarId) (slot : PartType) (id : PartId) :
    List Discrepancy :=
  match parts.parts.get? id with
  | none => [.slottedPartMissing car id]
  | some part =>
    reportIf (part.kind ≠ slot) (.wrongSlot id part.kind slot car) ++
      reportIf (part.equippedTo ≠ some car) (.otherCarMarked id car part.equippedTo)

/-- Slots in their order, `seen` holding the car of each part met before. -/
def checkSlots (parts : PartRegistry) (seen : Table PartId CarId) :
    List (CarId × PartType × PartId) → List Discrepancy
  | [] => []
  | (car, slot, id) :: rest =>
    ((seen.get? id).map (.slottedTwice id · car)).toList ++ checkSlotted parts car slot id ++
      checkSlots parts (seen.insert id car) rest

/-- Parts that are marked although no slot holds them. -/
def checkMarks (parts : PartRegistry) (slots : List (CarId × PartType × PartId)) :
    List Discrepancy :=
  let held := Table.ofList (slots.map fun s => (s.2.2, s.1))
  parts.parts.values.flatMap fun part =>
    reportIf (part.isEquipped && !held.contains part.id) (.markedOnly part.id)

/-! ### Holdings -/

def isIndexed (parts : PartRegistry) (part : Part) : Bool :=
  (parts.owners.get? part.owner).any (·.all.contains part.id)

def sorted (ids : List PartId) : List PartId :=
  ids.mergeSort fun a b => a.number ≤ b.number

/-- Equipped and unequipped parts together are all parts. -/
def isCovered (h : Holdings) : Bool :=
  h.all.items.all (fun id => h.equipped.contains id || h.unequipped.contains id) &&
    h.equipped.items.all h.all.contains && h.unequipped.items.all h.all.contains

def checkKind (parts : PartRegistry) (owner : AccountId) (h : Holdings) (t : PartType) :
    List Discrepancy :=
  (h.byType.get t).items.flatMap fun id =>
    reportIf ((parts.parts.get? id).map Part.kind ≠ some t) (.wrongKind owner id t)

/-- An indexed part against its record. -/
def checkHeld (parts : PartRegistry) (owner : AccountId) (h : Holdings) (id : PartId) :
    List Discrepancy :=
  match parts.parts.get? id with
  | none => [.indexedPartMissing owner id]
  | some part =>
    if part.owner ≠ owner then [.foreignPart id owner part.owner]
    else reportIf (part.isEquipped != h.equipped.contains id) (.wrongSide id owner)

def checkHoldings (parts : PartRegistry) (owner : AccountId) (h : Holdings) : List Discrepancy :=
  let counted := h.byType.engine.size + h.byType.transmission.size + h.byType.wheels.size
  reportIf h.isEmpty (.emptyHoldings owner) ++
    reportIf (h.equipped.items.any h.unequipped.contains) (.equippedAndNot owner) ++
    reportIf (!isCovered h) (.neitherEquippedNorNot owner) ++
    PartType.all.flatMap (checkKind parts owner h) ++
    reportIf (counted ≠ h.all.size) (.kindCount owner counted h.all.size) ++
    (sorted h.all.items).flatMap (checkHeld parts owner h)

def checkParts (parts : PartRegistry) : List Discrepancy :=
  (parts.parts.values.flatMap fun part =>
    reportIf (!isIndexed parts part) (.partNotIndexed part.id)) ++
  parts.owners.entries.flatMap fun entry => checkHoldings parts entry.1 entry.2

/-! ### Cars and currency -/

def checkCars (cars : CarRegistry) : List Discrepancy :=
  (cars.cars.values.flatMap fun car =>
    reportIf (!(cars.owners.get? car.owner).any (·.contains car.id)) (.carNotIndexed car.id)) ++
  cars.owners.entries.flatMap fun entry =>
    entry.2.items.flatMap fun id =>
      reportIf ((cars.cars.get? id).map Car.owner ≠ some entry.1) (.foreignCar id entry.1)

def checkBank (bank : Bank) : List Discrepancy :=
  match bank.circulating? with
  | none => [.sumOverflow]
  | some sum => reportIf (sum ≠ bank.totalIssued) (.wrongSum sum bank.totalIssued)

end Audit

/-- Compares everything, in a fixed order. -/
def audit (g : Garage) (bank : Bank) : AuditReport where
  partsChecked := g.parts.size
  carsChecked := g.cars.size
  discrepancies :=
    let slots := Audit.slotted g.cars
    Audit.checkSlots g.parts Table.empty slots ++ Audit.checkMarks g.parts slots ++
      Audit.checkParts g.parts ++ Audit.checkCars g.cars ++ Audit.checkBank bank

open Json

instance : Encode Discrepancy where
  encode d := .object [("kind", .string d.kind.name), ("description", encode d.description)]

instance : Encode AuditReport where
  encode r := .object [
    ("parts_checked", encode r.partsChecked),
    ("cars_checked", encode r.carsChecked),
    ("violations", encode r.discrepancies)]

end Paddock
