import Paddock.Ledger.Operation

/-!
Requests: operations that may leave a price, a slot or a spender to the ledger that they are made to.
-/
namespace Paddock

/-- What somebody is approved for. -/
inductive ApprovalTarget where
  | car (id : CarId)
  | part (id : PartId)
  | all
deriving DecidableEq, Repr

instance : ToString ApprovalTarget where
  toString
    | .car id => toString id
    | .part id => toString id
    | .all => "all assets"

/-- `mintCar`, `buy` and `repair` pay what is asked, and `equip` puts a part into the slot of its
kind. The spender of an approval is the market, if no one is named. -/
inductive Request where
  | exact (operation : Operation)
  | mintCar (caller : AccountId) (request : MintRequest)
  | equip (caller : AccountId) (car : CarId) (part : PartId)
  | approve (caller : AccountId) (spender : Option AccountId) (target : ApprovalTarget)
    (granted : Bool)
  | buy (buyer : AccountId) (car : CarId)
  | repair (caller : AccountId) (car : CarId)
deriving DecidableEq, Repr

inductive RequestError where
  | notListed (car : CarId)
  | ledger (error : LedgerError)
deriving DecidableEq, Repr

def RequestError.cause : RequestError → Cause
  | notListed car => .ofText s!"{car} is not listed"
  | ledger error => error.cause

namespace Ledger

def spenderOf (s : Ledger) (spender : Option AccountId) : AccountId :=
  spender.getD s.market.account

def approval (s : Ledger) (caller : AccountId) (spender : Option AccountId)
    (target : ApprovalTarget) (granted : Bool) : Operation :=
  let account := s.spenderOf spender
  let approved := if granted then some account else none
  match target with
  | .car id => .approveCar caller id approved
  | .part id => .approvePart caller id approved
  | .all => .approveAll caller account granted

/-- The operation that a request stands for in the present state. -/
def resolve (s : Ledger) : Request → Except RequestError Operation
  | .exact operation => .ok operation
  | .mintCar caller request => .ok (.mintCar caller request s.mintPrice)
  | .equip caller car part =>
    match s.garage.parts.get part with
    | .ok found => .ok (.equip caller car part (UInt64.ofNat found.kind.slot))
    | .error e => .error (.ledger (.parts e))
  | .approve caller spender target granted => .ok (s.approval caller spender target granted)
  | .buy buyer car =>
    match s.market.listing? car with
    | some listing => .ok (.buy buyer car listing.price)
    | none => .error (.notListed car)
  | .repair caller car => .ok (.repair caller car s.workshop.repairPrice)

/-- An operation that was carried out: what it answered, and the ledger after it. -/
structure Served where
  operation : Operation
  reply : Reply
  ledger : Ledger

/-- Carries out a request. -/
def serve (hash : Hasher) (request : Request) : Change RequestError Ledger Served := do
  let operation ← .check (·.resolve request)
  let reply ← (perform hash operation).adaptExcept .ledger
  let ledger ← get
  return ⟨operation, reply, ledger⟩

end Ledger

end Paddock
