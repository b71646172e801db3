import Paddock.Approvals
import Paddock.Change
import Paddock.Part.Holdings
import Paddock.Part.Spec

/-!
The registry of parts: every part with its owner, and for every owner what it holds. Whatever moves
a part or puts it on a car changes both together, in place: `transferInPlace` and the like are the
operations, `transfer` and the like their outcomes where they succeed.
-/
namespace Paddock

/-- A part remembers what it was minted from and the car that it is on. -/
structure Part where
  id : PartId
  owner : AccountId
  spec : PartSpec
  equippedTo : Option CarId
deriving DecidableEq, Repr

namespace Part

def kind (p : Part) : PartType := p.spec.kind

def isEquipped (p : Part) : Bool := p.equippedTo.isSome

end Part

inductive PartError where
  | partNotFound (part : PartId)
  | notOwner (part : PartId) (account : AccountId)
  | alreadyEquipped (part : PartId)
  | notEquipped (part : PartId)
  | invalidStat (value max : UInt8)
  | idExhausted
deriving DecidableEq, Repr

def PartError.message : PartError → String
  | partNotFound part => s!"part not found: {part}"
  | notOwner part account => s!"{account} does not own {part}"
  | alreadyEquipped part => s!"{part} is already equipped"
  | notEquipped part => s!"{part} is not equipped"
  | invalidStat value max => s!"stat value {value} exceeds maximum {max}"
  | idExhausted => "part id space exhausted"

structure PartRegistry where
  parts : Table PartId Part
  owners : Table AccountId Holdings
  approvals : Approvals PartId
  lastId : UInt64
  maxStat : UInt8
deriving DecidableEq

/-- The full records of what one owner holds. -/
structure HoldingDetails where
  all : List Part
  equipped : List Part
  unequipped : List Part
deriving DecidableEq

namespace PartRegistry

def new (maxStat : UInt8) : PartRegistry :=
  ⟨Table.empty, Table.empty, Approvals.empty, 0, maxStat⟩

def get (r : PartRegistry) (id : PartId) : Except PartError Part :=
  match r.parts.get? id with
  | some part => .ok part
  | none => .error (.partNotFound id)

def ensureOwner (r : PartRegistry) (id : PartId) (account : AccountId) : Except PartError Part := do
  let part ← r.get id
  if part.owner = account then return part else throw (.notOwner id account)

/-! ### Minting -/

/-- The first stat that is too great is the one reported. -/
def validateSpec (r : PartRegistry) (spec : PartSpec) : Except PartError Unit :=
  match spec.stats.toList.find? (r.maxStat < ·) with
  | some value => .error (.invalidStat value r.maxStat)
  | none => .ok ()

/-- The number after the last one, while there is one. -/
def nextId (r : PartRegistry) : Except PartError PartId :=
  if r.lastId.toNat + 1 < UInt64.size then .ok ⟨r.lastId + 1⟩ else .error .idExhausted

def holdingsOf (r : PartRegistry) (owner : AccountId) : Holdings :=
  (r.owners.get? owner).getD .empty

/-- Adds one part under the next number. -/
def addPart (r : PartRegistry) (owner : AccountId) (spec : PartSpec) (car : Option CarId) :
    PartRegistry :=
  let id : PartId := ⟨r.lastId + 1⟩
  let part : Part := ⟨id, owner, spec, car⟩
  { r with
    lastId := id.number
    owners := r.owners.insert owner ((r.holdingsOf owner).add id part.kind part.isEquipped)
    parts := r.parts.insert id part }

def addParts (owner : AccountId) :
    PartRegistry → List (PartSpec × Option CarId) → List PartId × PartRegistry
  | r, [] => ([], r)
  | r, (spec, car) :: rest =>
    let (ids, r') := addParts owner (r.addPart owner spec car) rest
    (⟨r.lastId + 1⟩ :: ids, r')

/-- Whether there are numbers for so many more parts. -/
def checkRoom (r : PartRegistry) (count : Nat) : Except PartError Unit :=
  if r.lastId.toNat + count < UInt64.size then .ok () else .error .idExhausted

/-- Mints several parts: every spec is looked at before the first part is made. -/
def mintBatchInPlace (owner : AccountId) (batch : List (PartSpec × Option CarId)) :
    Change PartError PartRegistry (List PartId) := do
  Change.check fun r => batch.forM fun item => r.validateSpec item.1
  Change.check (·.checkRoom batch.length)
  modifyGet (addParts owner · batch)

def mintBatch (r : PartRegistry) (owner : AccountId) (batch : List (PartSpec × Option CarId)) :
    Except PartError (List PartId × PartRegistry) :=
  (mintBatchInPlace owner batch).outcome r

/-- Mints one part. A batch of one that gave no number would be refused only after the part was made. -/
def mintInPlace (owner : AccountId) (spec : PartSpec) (car : Option CarId) :
    Change PartError PartRegistry PartId := do
  match ← mintBatchInPlace owner [(spec, car)] with
  | id :: _ => return id
  | [] => throw .idExhausted

def mint (r : PartRegistry) (owner : AccountId) (spec : PartSpec) (car : Option CarId) :
    Except PartError (PartId × PartRegistry) :=
  (mintInPlace owner spec car).outcome r

/-! ### Being on a car -/

/-- Writes the mark of a part, in its record and in its owner's holdings. -/
def mark (r : PartRegistry) (id : PartId) (part : Part) (car : Option CarId) : PartRegistry :=
  { r with
    parts := r.parts.insert id { part with equippedTo := car }
    owners := r.owners.insert part.owner ((r.holdingsOf part.owner).mark id car.isSome) }

/-- Puts a loose part on a car, or makes an equipped part loose. Who may do so is not asked here. -/
def setEquippedInPlace (id : PartId) (car : Option CarId) : Change PartError PartRegistry Unit := do
  let part ← .check (·.get id)
  match part.equippedTo, car with
  | some _, some _ => throw (.alreadyEquipped id)
  | none, none => throw (.notEquipped id)
  | _, _ => modify (·.mark id part car)

def setEquipped (r : PartRegistry) (id : PartId) (car : Option CarId) : Except PartError PartRegistry :=
  ((setEquippedInPlace id car).outcome r).map Prod.snd

/-! ### Ownership -/

/-- Takes a part out of what an owner holds; an owner left with nothing has no entry. -/
def dropHolding (r : PartRegistry) (owner : AccountId) (id : PartId) (kind : PartType) :
    Table AccountId Holdings :=
  match r.owners.get? owner with
  | none => r.owners
  | some holdings =>
    let rest := holdings.remove id kind
    if rest.isEmpty then r.owners.erase owner else r.owners.insert owner rest

/-- Hands a part to another owner. It stays on its car if it is on one, and its approval ends. -/
def give (r : PartRegistry) (id : PartId) (part : Part) (target : AccountId) : PartRegistry :=
  let owners := r.dropHolding part.owner id part.kind
  let holdings := ((owners.get? target).getD .empty).add id part.kind part.isEquipped
  { r with
    parts := r.parts.insert id { part with owner := target }
    owners := owners.insert target holdings
    approvals := r.approvals.clear id }

/-- Moves a part from one owner to another. -/
def transferInPlace (id : PartId) (source target : AccountId) : Change PartError PartRegistry Unit := do
  let part ← .check (·.ensureOwner id source)
  if source = target then return ()
  else modify (·.give id part target)

def transfer (r : PartRegistry) (id : PartId) (source target : AccountId) :
    Except PartError PartRegistry :=
  ((transferInPlace id source target).outcome r).map Prod.snd

/-- Whether someone may move a part, which has to be loose; gives the owner. -/
def checkTransfer (r : PartRegistry) (caller : AccountId) (id : PartId) : Except PartError AccountId := do
  let part ← r.get id
  if !r.approvals.isAuthorized part.owner id caller then throw (.notOwner id caller)
  else if part.isEquipped then throw (.alreadyEquipped id)
  else return part.owner

/-- Moves a loose part at the wish of someone who may move it. -/
def transferFromInPlace (caller : AccountId) (id : PartId) (target : AccountId) :
    Change PartError PartRegistry Unit := do
  let owner ← .check (·.checkTransfer caller id)
  transferInPlace id owner target

def transferFrom (r : PartRegistry) (caller : AccountId) (id : PartId) (target : AccountId) :
    Except PartError PartRegistry :=
  ((transferFromInPlace caller id target).outcome r).map Prod.snd

/-! ### Approvals -/

/-- The owner and the owner's operators decide who else may move a part. -/
def checkApprove (r : PartRegistry) (caller : AccountId) (id : PartId) : Except PartError Unit := do
  let part ← r.get id
  if caller = part.owner ∨ r.approvals.isOperator part.owner caller then return ()
  else throw (.notOwner id caller)

def approveInPlace (caller : AccountId) (id : PartId) (account : Option AccountId) :
    Change PartError PartRegistry Unit := do
  Change.check (·.checkApprove caller id)
  modify fun r => { r with approvals := r.approvals.approve id account }

def approve (r : PartRegistry) (caller : AccountId) (id : PartId) (account : Option AccountId) :
    Except PartError PartRegistry :=
  ((approveInPlace caller id account).outcome r).map Prod.snd

def setOperator (r : PartRegistry) (owner operator : AccountId) (approved : Bool) : PartRegistry :=
  { r with approvals := r.approvals.setOperator owner operator approved }

def isAuthorized (r : PartRegistry) (id : PartId) (account : AccountId) : Except PartError Bool := do
  let part ← r.get id
  return r.approvals.isAuthorized part.owner id account

/-! ### Queries -/

def ownerOf (r : PartRegistry) (id : PartId) : Except PartError AccountId :=
  (r.get id).map Part.owner

def kindOf (r : PartRegistry) (id : PartId) : Except PartError PartType :=
  (r.get id).map Part.kind

def lastPart? (r : PartRegistry) : Option PartId :=
  if r.lastId = 0 then none else some ⟨r.lastId⟩

def size (r : PartRegistry) : Nat := r.parts.size

def ownerParts (r : PartRegistry) (owner : AccountId) : List PartId :=
  (r.holdingsOf owner).all.items

def ownerPartsByType (r : PartRegistry) (owner : AccountId) (kind : PartType) : List PartId :=
  ((r.holdingsOf owner).byType.get kind).items

def ownerEquipped (r : PartRegistry) (owner : AccountId) : List PartId :=
  (r.holdingsOf owner).equipped.items

def ownerUnequipped (r : PartRegistry) (owner : AccountId) : List PartId :=
  (r.holdingsOf owner).unequipped.items

/-- The records of some parts; numbers without a part are passed over. -/
def records (r : PartRegistry) (ids : List PartId) : List Part :=
  ids.filterMap r.parts.get?

def details (r : PartRegistry) (owner : AccountId) : HoldingDetails :=
  { all := r.records (r.ownerParts owner)
    equipped := r.records (r.ownerEquipped owner)
    unequipped := r.records (r.ownerUnequipped owner) }

end PartRegistry

/-! ### As JSON -/

open Json

instance : Encode Part where
  encode p := .object [
    ("id", encode p.id),
    ("owner", encode p.owner),
    ("part_type", encode p.kind),
    ("stat1", encode p.spec.stats.first),
    ("stat2", encode p.spec.stats.second),
    ("stat3", encode p.spec.stats.third),
    ("image_uri", encode p.spec.image),
    ("equipped_to", encode p.equippedTo)]

def Part.fieldNames : List (List String) := [
  ["id"], ["owner"], ["part_type"], ["stat1"], ["stat2"], ["stat3"], ["image_uri"], ["equipped_to"]]

instance : Decode Part where
  decode? j :=
    match fields? Part.fieldNames j with
    | some [id, owner, kind, first, second, third, image, car] => do
      let id ← required id
      let owner ← required owner
      let kind ← required kind
      let first ← required first
      let second ← required second
      let third ← required third
      let image ← required image
      let car ← orNull car
      return ⟨id, owner, ⟨kind, ⟨first, second, third⟩, image⟩, car⟩
    | _ => none

instance : Encode HoldingDetails where
  encode d := .object [
    ("all_parts", encode d.all),
    ("equipped_parts", encode d.equipped),
    ("unequipped_parts", encode d.unequipped)]

instance : Encode PartRegistry where
  encode r := .object [
    ("parts", encode r.parts),
    ("owners", encode r.owners),
    ("approvals", encode r.approvals),
    ("last_id", encode r.lastId),
    ("max_stat", encode r.maxStat)]

instance : Decode PartRegistry where
  decode? j :=
    match fields? [["parts"], ["owners"], ["approvals"], ["last_id"], ["max_stat"]] j with
    | some [parts, owners, approvals, lastId, maxStat] => do
      let parts ← required parts
      let owners ← required owners
      let approvals ← required approvals
      let lastId ← required lastId
      let maxStat ← required maxStat
      return ⟨parts, owners, approvals, lastId, maxStat⟩
    | _ => none

end Paddock
