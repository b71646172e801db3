import Paddock.Amount
import Paddock.Json.Keyed
import Paddock.Part.Kind

/-!
Offers to sell a car, some of its parts perhaps included.
-/
namespace Paddock

/-- Only an active listing can be bought or cancelled. -/
inductive ListingState where
  | active
  | settled (buyer : AccountId)
  | cancelled
deriving DecidableEq, Repr

/-- `parts` are the parts that sat in the included slots when the listing was made. -/
structure Listing where
  car : CarId
  seller : AccountId
  price : Amount
  included : PerType Bool
  parts : PerType (Option PartId)
  state : ListingState
deriving DecidableEq, Repr

namespace Listing

def isActive (l : Listing) : Bool := l.state == .active

/-- The parts that go with the car, by slot. -/
def bundled (l : Listing) : List (PartType × PartId) :=
  PartType.all.filterMap fun t => (l.parts.get t).map (t, ·)

end Listing

open Json

instance : Encode ListingState where
  encode
    | .active => .object [("state", .string "active")]
    | .settled buyer => .object [("state", .string "settled"), ("buyer", encode buyer)]
    | .cancelled => .object [("state", .string "cancelled")]

/-- A state by name. What else the object holds has to be readable, but matters only where a buyer is
due; an array holds the name and then the buyer. -/
def ListingState.decode? (j : Json) : Option ListingState :=
  match j with
  | .object members => do
    let tag ← (← field? members ["state"])
    let rest := members.filter (·.1.text != "state")
    guard (membersReadable rest)
    match tag with
    | .string "active" => some .active
    | .string "cancelled" => some .cancelled
    | .string "settled" => do
      let buyer ← required (← field? rest ["buyer"])
      return .settled buyer
    | _ => none
  | .array [.string "active"] => some .active
  | .array [.string "cancelled"] => some .cancelled
  | .array [.string "settled", buyer] => (Json.decode? buyer).map .settled
  | _ => none

instance : Decode ListingState := ⟨ListingState.decode?⟩

instance : Encode Listing where
  encode l := .object [
    ("car_id", encode l.car),
    ("seller", encode l.seller),
    ("price", encode l.price),
    ("include_slots", encode l.included),
    ("part_ids", encode l.parts),
    ("state", encode l.state)]

instance : Decode Listing where
  decode? j :=
    match fields? [["car_id"], ["seller"], ["price"], ["include_slots"], ["part_ids"], ["state"]] j with
    | some [car, seller, price, included, parts, state] => do
      let car ← required car
      let seller ← required seller
      let price ← required price
      let included ← required included
      let parts ← required parts
      let state ← required state
      return ⟨car, seller, price, included, parts, state⟩
    | _ => none

end Paddock
