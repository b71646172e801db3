import Paddock.Amount
import Paddock.Json.Keyed
import Paddock.Part.Kind

/-!
Events: what the journal says about each operation that was carried out.
-/
namespace Paddock

/-- The two accounts that the operator may appoint. -/
inductive Authority where
  | workshop
  | leaderboard
deriving DecidableEq, Repr

inductive Event where
  | deposited (account : AccountId) (amount : Amount)
  | carMinted (car : CarId) (owner : AccountId) (paid : Amount)
  | partMinted (part : PartId) (owner : AccountId) (kind : PartType)
  | partEquipped (car : CarId) (part : PartId) (slot : UInt64)
  | partUnequipped (car : CarId) (part : PartId)
  | partReplaced (car : CarId) (old new : PartId)
  | partTransferred (part : PartId) (source target : AccountId)
  | carTransferred (car : CarId) (source target : AccountId)
  | partApproved (part : PartId) (approved : Option AccountId)
  | carApproved (car : CarId) (approved : Option AccountId)
  | operatorApproval (owner operator : AccountId) (approved : Bool)
  | carListed (car : CarId) (seller : AccountId) (price : Amount) (included : PerType Bool)
  | listingCancelled (car : CarId)
  | carSold (car : CarId) (seller buyer : AccountId) (price fee : Amount) (parts : List PartId)
  | carRepaired (car : CarId) (paid : Amount)
  | wearApplied (car : CarId) (amount : UInt8)
  | raceRecorded (car : CarId) (score : UInt64)
  | mintPriceSet (price : Amount)
  | repairPriceSet (price : Amount)
  | protocolFeeSet (bps : UInt16)
  | authoritySet (role : Authority) (account : Option AccountId)
  | withdrawn (target : AccountId) (amount : Amount)
  | operatorTransferred (source target : AccountId)
  | baseUriSet (uri : String)
deriving DecidableEq, Repr

open Json

instance : Encode Authority where
  encode
    | .workshop => .string "workshop"
    | .leaderboard => .string "leaderboard"

instance : Decode Authority where
  decode? j :=
    match bareName? j with
    | some "workshop" => some .workshop
    | some "leaderboard" => some .leaderboard
    | _ => none

namespace Event

/-- The name of an event and its fields. -/
def parts : Event → String × List (Name × Json)
  | deposited account amount => ("deposited", [("account", encode account), ("amount", encode amount)])
  | carMinted car owner paid =>
    ("car_minted", [("car_id", encode car), ("owner", encode owner), ("paid", encode paid)])
  | partMinted part owner kind =>
    ("part_minted", [("part_id", encode part), ("owner", encode owner), ("part_type", encode kind)])
  | partEquipped car part slot =>
    ("part_equipped", [("car_id", encode car), ("part_id", encode part), ("slot", encode slot)])
  | partUnequipped car part =>
    ("part_unequipped", [("car_id", encode car), ("part_id", encode part)])
  | partReplaced car old new =>
    ("part_replaced", [("car_id", encode car), ("old_part", encode old), ("new_part", encode new)])
  | partTransferred part source target =>
    ("part_transferred", [("part_id", encode part), ("from", encode source), ("to", encode target)])
  | carTransferred car source target =>
    ("car_transferred", [("car_id", encode car), ("from", encode source), ("to", encode target)])
  | partApproved part approved =>
    ("part_approved", [("part_id", encode part), ("approved", encode approved)])
  | carApproved car approved =>
    ("car_approved", [("car_id", encode car), ("approved", encode approved)])
  | operatorApproval owner operator approved =>
    ("operator_approval",
      [("owner", encode owner), ("operator", encode operator), ("approved", encode approved)])
  | carListed car seller price included =>
    ("car_listed", [("car_id", encode car), ("seller", encode seller), ("price", encode price),
      ("include_slots", encode included)])
  | listingCancelled car => ("listing_cancelled", [("car_id", encode car)])
  | carSold car seller buyer price fee parts =>
    ("car_sold", [("car_id", encode car), ("seller", encode seller), ("buyer", encode buyer),
      ("price", encode price), ("fee", encode fee), ("parts", encode parts)])
  | carRepaired car paid => ("car_repaired", [("car_id", encode car), ("paid", encode paid)])
  | wearApplied car amount => ("wear_applied", [("car_id", encode car), ("amount", encode amount)])
  | raceRecorded car score => ("race_recorded", [("car_id", encode car), ("score", encode score)])
  | mintPriceSet price => ("mint_price_set", [("price", encode price)])
  | repairPriceSet price => ("repair_price_set", [("price", encode price)])
  | protocolFeeSet bps => ("protocol_fee_set", [("bps", encode bps)])
  | authoritySet role account =>
    ("authority_set", [("role", encode role), ("account", encode account)])
  | withdrawn target amount => ("withdrawn", [("to", encode target), ("amount", encode amount)])
  | operatorTransferred source target =>
    ("operator_transferred", [("from", encode source), ("to", encode target)])
  | baseUriSet uri => ("base_uri_set", [("uri", encode uri)])

/-- An object whose one member has the event's name and holds its fields. -/
instance : Encode Event where
  encode e := .object [(e.parts.1, .object e.parts.2)]

section Read

variable {α β γ δ : Type} [Decode α] [Decode β] [Decode γ] [Decode δ]

def one (name : String) (make : α → Event) (j : Json) : Option Event :=
  match fields? [[name]] j with
  | some [a] => do return make (← required a)
  | _ => none

def two (first second : String) (make : α → β → Event) (j : Json) : Option Event :=
  match fields? [[first], [second]] j with
  | some [a, b] => do
    let a ← required a
    let b ← required b
    return make a b
  | _ => none

/-- The second field may be missing. -/
def oneAndMaybe (first second : String) (make : α → Option β → Event) (j : Json) : Option Event :=
  match fields? [[first], [second]] j with
  | some [a, b] => do
    let a ← required a
    let b ← orNull b
    return make a b
  | _ => none

def three (first second third : String) (make : α → β → γ → Event) (j : Json) : Option Event :=
  match fields? [[first], [second], [third]] j with
  | some [a, b, c] => do
    let a ← required a
    let b ← required b
    let c ← required c
    return make a b c
  | _ => none

def four (first second third fourth : String) (make : α → β → γ → δ → Event) (j : Json) :
    Option Event :=
  match fields? [[first], [second], [third], [fourth]] j with
  | some [a, b, c, d] => do
    let a ← required a
    let b ← required b
    let c ← required c
    let d ← required d
    return make a b c d
  | _ => none

end Read

def soldFields (j : Json) : Option Event :=
  match fields? [["car_id"], ["seller"], ["buyer"], ["price"], ["fee"], ["parts"]] j with
  | some [car, seller, buyer, price, fee, parts] => do
    let car ← required car
    let seller ← required seller
    let buyer ← required buyer
    let price ← required price
    let fee ← required fee
    let parts ← required parts
    return carSold car seller buyer price fee parts
  | _ => none

/-- The event of a name, its fields read from what the name holds. -/
def ofParts? (name : String) (fields : Json) : Option Event :=
  match name with
  | "deposited" => two "account" "amount" deposited fields
  | "car_minted" => three "car_id" "owner" "paid" carMinted fields
  | "part_minted" => three "part_id" "owner" "part_type" partMinted fields
  | "part_equipped" => three "car_id" "part_id" "slot" partEquipped fields
  | "part_unequipped" => two "car_id" "part_id" partUnequipped fields
  | "part_replaced" => three "car_id" "old_part" "new_part" partReplaced fields
  | "part_transferred" => three "part_id" "from" "to" partTransferred fields
  | "car_transferred" => three "car_id" "from" "to" carTransferred fields
  | "part_approved" => oneAndMaybe "part_id" "approved" partApproved fields
  | "car_approved" => oneAndMaybe "car_id" "approved" carApproved fields
  | "operator_approval" => three "owner" "operator" "approved" operatorApproval fields
  | "car_listed" => four "car_id" "seller" "price" "include_slots" carListed fields
  | "listing_cancelled" => one "car_id" listingCancelled fields
  | "car_sold" => soldFields fields
  | "car_repaired" => two "car_id" "paid" carRepaired fields
  | "wear_applied" => two "car_id" "amount" wearApplied fields
  | "race_recorded" => two "car_id" "score" raceRecorded fields
  | "mint_price_set" => one "price" mintPriceSet fields
  | "repair_price_set" => one "price" repairPriceSet fields
  | "protocol_fee_set" => one "bps" protocolFeeSet fields
  | "authority_set" => oneAndMaybe "role" "account" authoritySet fields
  | "withdrawn" => two "to" "amount" withdrawn fields
  | "operator_transferred" => two "from" "to" operatorTransferred fields
  | "base_uri_set" => one "uri" baseUriSet fields
  | _ => none

instance : Decode Event where
  decode?
    | .object [(name, fields)] => ofParts? name.text fields
    | _ => none

end Event

end Paddock
