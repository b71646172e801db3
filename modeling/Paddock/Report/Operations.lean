import Paddock.Ledger.Request
import Paddock.Report.Basic

/-!
What is shown of operations that were carried out.
-/
namespace Paddock.Report

open Json

/-- An account may stand for the treasury by being left out. -/
def balanceView (account : Option AccountId) (balance : Amount) : Json :=
  .object [("account", encode account), ("balance", encode balance)]

def deposited (account : AccountId) (amount balance : Amount) : Report where
  lines := [done [s!"Deposited {amount} (balance {balance})"]]
  view := balanceView (some account) balance

def withdrawn (target : AccountId) (amount : Amount) : Report where
  lines := [done [s!"Withdrew {amount} to {target}"]]
  view := some (.object [("to", encode target), ("amount", encode amount)])

def mintedSlot (slots : PerType (Option PartId)) (t : PartType) : Line :=
  ["  ", padRight 12 t.name, " ", slotLabel (slots.get t)]

def carMinted (car : CarId) (slots : PerType (Option PartId)) (paid : Amount) : Report where
  lines := done ["Minted ", .vivid .yellow (toString car), s!" for {paid}"] ::
    PartType.all.map (mintedSlot slots)
  view := some (.object [("car_id", encode car), ("part_ids", encode slots), ("paid", encode paid)])

def partMinted (part : PartId) (owner : AccountId) (kind : PartType) : Report where
  lines := [done [s!"Minted {kind} {part} for {owner}"]]
  view := encode part

def approved (spender : AccountId) (target : ApprovalTarget) (granted : Bool) : Report :=
  let verb := if granted then "Approved" else "Revoked"
  ofDone [s!"{verb} {spender} for {target}"]

def commaSeparated (ids : List PartId) : String :=
  String.intercalate ", " (ids.map toString)

def saleLines (plan : PurchasePlan) : List Line := [
  done [s!"Bought {plan.car} from {plan.seller}"],
  [s!"  Price: {plan.price} (fee {plan.fee}, seller receives {plan.proceeds})"]]

def refundLines (plan : PurchasePlan) : List Line :=
  if plan.refund = 0 then [] else [[s!"  Refunded: {plan.refund}"]]

def bundleLines (plan : PurchasePlan) : List Line :=
  if plan.bundled.isEmpty then [] else [[s!"  Parts included: {commaSeparated plan.bundled}"]]

def bought (plan : PurchasePlan) : Report where
  lines := saleLines plan ++ refundLines plan ++ bundleLines plan
  view := encode plan

def repaired (receipt : RepairReceipt) : Report where
  lines := [done [s!"Repaired {receipt.car}: condition {receipt.before.toNat} -> " ++
    s!"{receipt.after.toNat} (paid {receipt.charged})"]]
  view := encode receipt

def raced (car : CarId) (score : UInt64) (improved : Bool) : Report :=
  if improved then ofDone [s!"New best for {car}: ", .bold (toString score.toNat)]
  else { lines := [[s!"Recorded {score.toNat} for {car} (best unchanged)"]] }

def roleName : Authority → String
  | .workshop => "Workshop"
  | .leaderboard => "Leaderboard"

def appointed (role : Authority) : Option AccountId → Report
  | some account => ofDone [s!"{roleName role} authority set to {account}"]
  | none => ofDone [s!"{roleName role} authority cleared"]

/-- The slots of a car, all empty if there is no such car. -/
def slotsOf (s : Ledger) (car : CarId) : PerType (Option PartId) :=
  match s.garage.cars.get car with
  | .ok found => found.slots
  | .error _ => .replicate none

/-- An operation with its reply, in the ledger after it. Replies of other operations show nothing. -/
def ofOperation (s : Ledger) : Operation → Reply → Report
  | .deposit account amount, .amount balance => deposited account amount balance
  | .withdraw caller _, .amount amount => withdrawn caller amount
  | .mintCar _ _ paid, .car car => carMinted car (slotsOf s car) paid
  | .mintPart _ owner spec, .part part => partMinted part owner spec.kind
  | .equip _ car part slot, _ => ofDone [s!"Equipped {part} into slot {slot.toNat} of {car}"]
  | .unequip _ car part, _ => ofDone [s!"Unequipped {part} from {car}"]
  | .replace _ car old new, _ => ofDone [s!"Replaced {old} with {new} on {car}"]
  | .transferPart _ part target, _ => ofDone [s!"Transferred {part} to {target}"]
  | .transferCar _ car target, _ => ofDone [s!"Transferred {car} to {target}"]
  | .list _ car price _, _ => ofDone [s!"Listed {car} for ", .bold (toString price)]
  | .cancel _ car, _ => ofDone [s!"Cancelled listing for {car}"]
  | .buy .., .plan plan => bought plan
  | .repair .., .receipt receipt => repaired receipt
  | .wear _ car _, .condition condition => ofDone [s!"{car} condition now {condition.toNat}"]
  | .race _ car score, .improved improved => raced car score improved
  | .setMintPrice _ price, _ => ofDone [s!"Mint price set to {price}"]
  | .setRepairPrice _ price, _ => ofDone [s!"Repair price set to {price}"]
  | .setFee _ bps, _ => ofDone [s!"Marketplace fee set to {bps.toNat} bps"]
  | .setAuthority _ role account, _ => appointed role account
  | .transferOperator _ target, _ =>
    ofDone ["Operator is now ", .coloured .cyan (toString target)]
  | .setBaseUri _ uri, _ => ofDone ["Base URI set to ", .coloured .blue uri]
  | _, _ => { lines := [] }

/-- Of an approval the request is shown: once it is revoked the operation names no spender. -/
def ofServed (request : Request) (served : Ledger.Served) : Report :=
  match request with
  | .approve _ spender target granted => approved (served.ledger.spenderOf spender) target granted
  | _ => ofOperation served.ledger served.operation served.reply

/-- What a new ledger starts with. -/
def initialized (path : String) (operator : AccountId) (config : LedgerConfig) : Report where
  lines := [
    done ["Initialized ledger in ", .bold path],
    ["  Operator: ", .coloured .cyan (toString operator)],
    [s!"  Mint price: {config.mintPrice.toNat}"],
    [s!"  Marketplace fee: {config.feeBps.toNat} bps"]]

end Paddock.Report
