import Paddock.Ledger.Snapshot
import Paddock.Proofs.Json.Keys

/-! Everything that a ledger holds is read back as it was written. -/
namespace Paddock

open Json

/-! ### Parts, cars and offers -/

instance : Lossless Part :=
  .ofRecord 0 Part.fieldNames
    (fun p => [field p.id, field p.owner, field p.kind, field p.spec.stats.first, field p.spec.stats.second,
      field p.spec.stats.third, field p.spec.image, field p.equippedTo])
    (fun _ => ⟨by decide, rfl, rfl, rfl⟩) fun p h => by simp [decode?, h, field, Part.kind]

instance : Lossless Holdings :=
  .ofRecord 2 [["all"], ["by_type"], ["equipped"], ["unequipped"]]
    (fun h => [field h.all, field h.byType, field h.equipped, field h.unequipped])
    (fun _ => ⟨by decide, rfl, rfl, rfl⟩) fun a h => by simp [decode?, h, field]

instance : Lossless PartRegistry :=
  .ofRecord 4 [["parts"], ["owners"], ["approvals"], ["last_id"], ["max_stat"]]
    (fun r => [field r.parts, field r.owners, field r.approvals, field r.lastId, field r.maxStat])
    (fun _ => ⟨by decide, rfl, rfl, rfl⟩) fun r h => by simp [decode?, h, field]

instance : Lossless Car :=
  .ofRecord 1 [["id"], ["owner"], ["image_uri"], ["condition"], ["slots"]]
    (fun c => [field c.id, field c.owner, field c.image, field c.condition, field c.slots])
    (fun _ => ⟨by decide, rfl, rfl, rfl⟩) fun c h => by simp [decode?, h, field]

instance : Lossless CarRegistry :=
  .ofRecord 3 [["cars"], ["owners"], ["approvals"], ["last_id"], ["max_condition"]]
    (fun r => [field r.cars, field r.owners, field r.approvals, field r.lastId, field r.maxCondition])
    (fun _ => ⟨by decide, rfl, rfl, rfl⟩) fun r h => by simp [decode?, h, field]

theorem ListingState.decode?_encode (s : ListingState) : ListingState.decode? (encode s) = some s := by
  cases s with
  | active => simp [ListingState.decode?, encode, field?, membersReadable]
  | settled buyer =>
    have hbuyer : required (some (.string buyer.toHex)) = some buyer := required_encode buyer
    simp [ListingState.decode?, encode, field?, membersReadable, isReadable, hbuyer]
  | cancelled => simp [ListingState.decode?, encode, field?, membersReadable]

theorem ListingState.fits_encode (s : ListingState) : (encode s).Fits 1 := by
  cases s with
  | active =>
    have hrecord : IsRecord 0 [["state"]] [field "active"] (encode active) := ⟨by decide, rfl, rfl, rfl⟩
    exact hrecord.fits
  | settled buyer =>
    have hrecord : IsRecord 0 [["state"], ["buyer"]] [field "settled", field buyer] (encode (settled buyer)) :=
      ⟨by decide, rfl, rfl, rfl⟩
    exact hrecord.fits
  | cancelled =>
    have hrecord : IsRecord 0 [["state"]] [field "cancelled"] (encode cancelled) := ⟨by decide, rfl, rfl, rfl⟩
    exact hrecord.fits

instance : Lossless ListingState := ⟨1, ListingState.fits_encode, ListingState.decode?_encode⟩

instance : Lossless Listing :=
  .ofRecord 1 [["car_id"], ["seller"], ["price"], ["include_slots"], ["part_ids"], ["state"]]
    (fun l => [field l.car, field l.seller, field l.price, field l.included, field l.parts, field l.state])
    (fun _ => ⟨by decide, rfl, rfl, rfl⟩) fun l h => by simp [decode?, h, field]

instance : Lossless Market :=
  .ofRecord 3 [["account"], ["fee_bps"], ["listings"]]
    (fun m => [field m.account, field m.feeBps, field m.listings])
    (fun _ => ⟨by decide, rfl, rfl, rfl⟩) fun m h => by simp [decode?, h, field]

/-! ### Services and money -/

instance : Lossless Workshop :=
  .ofRecord 0 [["repair_price"], ["repair_amount"], ["authority"]]
    (fun w => [field w.repairPrice, field w.repairAmount, field w.authority])
    (fun _ => ⟨by decide, rfl, rfl, rfl⟩) fun w h => by simp [decode?, h, field]

instance : Lossless ScoreEntry :=
  .ofRecord 0 [["car_id"], ["score"], ["achieved_seq"]]
    (fun e => [field e.car, field e.score, field e.achieved])
    (fun _ => ⟨by decide, rfl, rfl, rfl⟩) fun e h => by simp [decode?, h, field]

instance : Lossless Leaderboard :=
  .ofRecord 2 [["authority"], ["best"], ["next_seq"]]
    (fun l => [field l.authority, field l.best, field l.nextResult])
    (fun _ => ⟨by decide, rfl, rfl, rfl⟩) fun l h => by simp [decode?, h, field]

instance : Lossless Bank :=
  .ofRecord 1 [["balances"], ["treasury"], ["total_issued"]]
    (fun b => [field b.balances, field b.treasury, field b.totalIssued])
    (fun _ => ⟨by decide, rfl, rfl, rfl⟩) fun b h => by simp [decode?, h, field]

/-! ### Events -/

instance : Lossless Authority where
  height := 0
  fits a := by cases a <;> exact .string _
  decode_encode a := by cases a <;> rfl

namespace Event

theorem byNumber_name (e : Event) : byNumber e.parts.1 = false := by
  cases e <;> simp only [parts] <;> decide

/-- The event is read from its name and its fields. -/
structure ReadBack (e : Event) : Prop where
  fits : (Json.object e.parts.2).Fits 2
  read : ofParts? e.parts.1 (.object e.parts.2) = some e

section Read

variable {α β γ δ : Type} [Encode α] [Encode β] [Encode γ] [Encode δ] [Decode α] [Decode β] [Decode γ] [Decode δ]
  [Lossless α] [Lossless β] [Lossless γ] [Lossless δ] {first second third fourth : String}

theorem readBack_one {make : α → Event} {a : α}
    (hrecord : IsRecord 1 [[first]] [field a] (.object (make a).parts.2))
    (hread : ofParts? (make a).parts.1 = one first make) : (make a).ReadBack := by
  refine ⟨hrecord.fits, ?_⟩
  rw [hread, one, hrecord.fields?_eq]
  simp [field]

theorem readBack_two {make : α → β → Event} {a : α} {b : β}
    (hrecord : IsRecord 1 [[first], [second]] [field a, field b] (.object (make a b).parts.2))
    (hread : ofParts? (make a b).parts.1 = two first second make) : (make a b).ReadBack := by
  refine ⟨hrecord.fits, ?_⟩
  rw [hread, two, hrecord.fields?_eq]
  simp [field]

theorem readBack_oneAndMaybe [NeverNull β] {make : α → Option β → Event} {a : α} {b : Option β}
    (hrecord : IsRecord 1 [[first], [second]] [field a, field b] (.object (make a b).parts.2))
    (hread : ofParts? (make a b).parts.1 = oneAndMaybe first second make) : (make a b).ReadBack := by
  refine ⟨hrecord.fits, ?_⟩
  rw [hread, oneAndMaybe, hrecord.fields?_eq]
  simp [field]

theorem readBack_three {make : α → β → γ → Event} {a : α} {b : β} {c : γ}
    (hrecord : IsRecord 1 [[first], [second], [third]] [field a, field b, field c] (.object (make a b c).parts.2))
    (hread : ofParts? (make a b c).parts.1 = three first second third make) : (make a b c).ReadBack := by
  refine ⟨hrecord.fits, ?_⟩
  rw [hread, three, hrecord.fields?_eq]
  simp [field]

theorem readBack_four {make : α → β → γ → δ → Event} {a : α} {b : β} {c : γ} {d : δ}
    (hrecord : IsRecord 1 [[first], [second], [third], [fourth]] [field a, field b, field c, field d] (.object (make a b c d).parts.2))
    (hread : ofParts? (make a b c d).parts.1 = four first second third fourth make) : (make a b c d).ReadBack := by
  refine ⟨hrecord.fits, ?_⟩
  rw [hread, four, hrecord.fields?_eq]
  simp [field]

end Read

theorem readBack (e : Event) : e.ReadBack := by
  cases e with
  | deposited account amount => exact readBack_two ⟨by decide, rfl, rfl, rfl⟩ rfl
  | carMinted car owner paid => exact readBack_three ⟨by decide, rfl, rfl, rfl⟩ rfl
  | partMinted part owner kind => exact readBack_three ⟨by decide, rfl, rfl, rfl⟩ rfl
  | partEquipped car part slot => exact readBack_three ⟨by decide, rfl, rfl, rfl⟩ rfl
  | partUnequipped car part => exact readBack_two ⟨by decide, rfl, rfl, rfl⟩ rfl
  | partReplaced car old new => exact readBack_three ⟨by decide, rfl, rfl, rfl⟩ rfl
  | partTransferred part source target => exact readBack_three ⟨by decide, rfl, rfl, rfl⟩ rfl
  | carTransferred car source target => exact readBack_three ⟨by decide, rfl, rfl, rfl⟩ rfl
  | partApproved part approved => exact readBack_oneAndMaybe ⟨by decide, rfl, rfl, rfl⟩ rfl
  | carApproved car approved => exact readBack_oneAndMaybe ⟨by decide, rfl, rfl, rfl⟩ rfl
  | operatorApproval owner operator approved => exact readBack_three ⟨by decide, rfl, rfl, rfl⟩ rfl
  | carListed car seller price included => exact readBack_four ⟨by decide, rfl, rfl, rfl⟩ rfl
  | listingCancelled car => exact readBack_one ⟨by decide, rfl, rfl, rfl⟩ rfl
  | carSold car seller buyer price fee sold =>
    have hrecord : IsRecord 1 [["car_id"], ["seller"], ["buyer"], ["price"], ["fee"], ["parts"]]
        [field car, field seller, field buyer, field price, field fee, field sold]
        (.object (carSold car seller buyer price fee sold).parts.2) := ⟨by decide, rfl, rfl, rfl⟩
    refine ⟨hrecord.fits, ?_⟩
    have hread : ofParts? (carSold car seller buyer price fee sold).parts.1 = soldFields := rfl
    rw [hread, soldFields, hrecord.fields?_eq]
    simp [field]
  | carRepaired car paid => exact readBack_two ⟨by decide, rfl, rfl, rfl⟩ rfl
  | wearApplied car amount => exact readBack_two ⟨by decide, rfl, rfl, rfl⟩ rfl
  | raceRecorded car score => exact readBack_two ⟨by decide, rfl, rfl, rfl⟩ rfl
  | mintPriceSet price => exact readBack_one ⟨by decide, rfl, rfl, rfl⟩ rfl
  | repairPriceSet price => exact readBack_one ⟨by decide, rfl, rfl, rfl⟩ rfl
  | protocolFeeSet bps => exact readBack_one ⟨by decide, rfl, rfl, rfl⟩ rfl
  | authoritySet role account => exact readBack_oneAndMaybe ⟨by decide, rfl, rfl, rfl⟩ rfl
  | withdrawn target amount => exact readBack_two ⟨by decide, rfl, rfl, rfl⟩ rfl
  | operatorTransferred source target => exact readBack_two ⟨by decide, rfl, rfl, rfl⟩ rfl
  | baseUriSet uri => exact readBack_one ⟨by decide, rfl, rfl, rfl⟩ rfl

instance : Lossless Event where
  height := 3
  fits e := by
    refine .object (fun m hm => ?_) fun m hm => ?_
    all_goals rw [List.mem_singleton.mp hm]
    · exact (byNumber_name e).symm
    · exact (readBack e).fits
  decode_encode e := (readBack e).read

end Event

instance : Lossless Entry :=
  .ofRecord 3 [["seq"], ["prev_hash"], ["hash"], ["event"]]
    (fun e => [field e.seq, field e.prev, field e.hash, field e.event])
    (fun _ => ⟨by decide, rfl, rfl, rfl⟩) fun e h => by simp [decode?, h, field]

instance : Lossless Journal :=
  .ofRecord 5 [["entries"]] (fun j => [field j.entries])
    (fun _ => ⟨by decide, rfl, rfl, rfl⟩) fun j h => by simp [decode?, h, field]

instance : Lossless Ledger :=
  .ofRecord 6 Ledger.fieldNames
    (fun s => [field s.operator, field s.mintPrice, field s.baseUri, field s.garage.parts, field s.garage.cars,
      field s.market, field s.workshop, field s.leaderboard, field s.bank, field s.journal])
    (fun _ => ⟨by decide, rfl, rfl, rfl⟩) fun s h => by simp [decode?, h, field]

end Paddock
