import Paddock.Proofs.Coherent
import Paddock.Proofs.Leaderboard

/-! Operations that fail have not changed anything: after its first step nothing in an operation fails. -/
namespace Paddock

open Change

namespace Garage

variable {g : Garage} {c : CarId} {p old new : PartId} {t : PartType} {caller : AccountId}

theorem clean_markPart (p : PartId) (mark : Option CarId) (g : Garage) : (markPart p mark).Clean g :=
  (PartRegistry.clean_setEquipped p mark g.parts).within rfl

theorem succeeds_writeSlot (h : ∃ car, g.cars.cars.get? c = some car) (t : PartType)
    (content : Option PartId) : (writeSlot c t content).Succeeds g := by
  obtain ⟨car, hcar⟩ := h
  exact ⟨(), _, writeSlot_ok_iff.mpr ⟨car, hcar, rfl⟩⟩

/-- Writing the slot that goes with a mark cannot fail, as marks leave cars alone. -/
theorem clean_mark_write {car : Car} (h : g.cars.cars.get? c = some car) (p : PartId)
    (mark : Option CarId) (t : PartType) (content : Option PartId) :
    (do markPart p mark; writeSlot c t content : Change CarError Garage Unit).Clean g := by
  refine (clean_markPart p mark g).bind fun _ g' hmark => ?_
  obtain ⟨part, -, -, rfl⟩ := markPart_ok_iff.mp hmark
  refine succeeds_writeSlot ?_ t content
  exact ⟨car, h⟩

theorem clean_equip (caller : AccountId) (c : CarId) (p : PartId) (n : Nat) (g : Garage) :
    (equipInPlace caller c p n).Clean g := by
  refine clean_check_bind fun t ht => ?_
  obtain ⟨-, car, hcar, -⟩ := checkEquip_eq_ok_iff.mp ht
  exact clean_mark_write hcar _ _ _ _

theorem clean_release (c : CarId) (t : PartType) (g : Garage) : (releaseInPlace c t).Clean g := by
  refine clean_check_bind fun car hcar => ?_
  have hcar := CarRegistry.get_eq_ok_iff.mp hcar
  cases car.slots.get t with
  | none => exact (succeeds_pure _).clean
  | some p =>
    refine (clean_markPart p none g).bind fun _ g' hmark => ?_
    obtain ⟨part, -, -, rfl⟩ := markPart_ok_iff.mp hmark
    refine Succeeds.bind (succeeds_writeSlot ?_ t none) fun _ _ _ => succeeds_pure _
    exact ⟨car, hcar⟩

theorem clean_unequip (caller : AccountId) (c : CarId) (p : PartId) (g : Garage) :
    (unequipInPlace caller c p).Clean g :=
  clean_check_bind fun t _ => (clean_release c t g).bind fun _ _ _ => succeeds_pure _

/-- The new part is known to be loose before the old one is, so it can be marked afterwards. -/
theorem clean_replace (caller : AccountId) (c : CarId) (old new : PartId) (g : Garage) :
    (replaceInPlace caller c old new).Clean g := by
  refine clean_check_bind fun t ht => ?_
  obtain ⟨car, hcar, -, -, -, newPart, -, hnew, -, hloose, -⟩ := checkReplace_eq_ok_iff.mp ht
  refine (clean_markPart old none g).bind fun _ g' hmark => ?_
  obtain ⟨oldPart, hold, hmarked, rfl⟩ := markPart_ok_iff.mp hmark
  have hne : old ≠ new := by
    rintro rfl
    obtain rfl := Option.some.inj (hold.symm.trans hnew)
    simp [Part.isEquipped, hloose] at hmarked
  have hnew' : (g.parts.mark old oldPart none).parts.get? new = some newPart := by
    rw [get?_mark, if_neg hne, hnew]
  refine Succeeds.bind ⟨(), _, markPart_ok_iff.mpr ⟨newPart, hnew', ?_, rfl⟩⟩ fun _ g' hmark => ?_
  · simp [Part.isEquipped, hloose]
  · obtain ⟨part, -, -, rfl⟩ := markPart_ok_iff.mp hmark
    refine succeeds_writeSlot ?_ t (some new)
    exact ⟨car, hcar⟩

theorem clean_mint (owner : AccountId) (image : String) (specs : List PartSpec) (g : Garage) :
    (mintInPlace owner image specs).Clean g := by
  refine clean_check_bind fun arranged _ => clean_check_bind fun car _ => ?_
  refine ((PartRegistry.clean_mintBatch _ _ g.parts).within rfl).bind fun ids g' _ => ?_
  exact (succeeds_modify _).bind fun _ _ _ => succeeds_pure _

end Garage

namespace Ledger

variable {hash : Hasher} {s : Ledger} {α : Type} {x : Change LedgerError Ledger α}

theorem clean_recorded (event : Event) (hx : x.Clean s) : (recorded hash event x).Clean s := by
  refine clean_get_bind (hx.bind fun a t _ => ?_)
  exact (succeeds_modify _).bind fun _ _ _ => succeeds_pure _

theorem succeeds_recorded (event : Event) (hx : x.Succeeds s) : (recorded hash event x).Succeeds s := by
  obtain ⟨a, t, h⟩ := hx
  exact ⟨a, _, recorded_ok_iff.mpr ⟨t, h, rfl⟩⟩

theorem succeeds_commitFunds (prepared : Prepared) (s : Ledger) : (commitFunds prepared).Succeeds s :=
  succeeds_modify _

theorem clean_inGarage {x : Change CarError Garage α} (hx : x.Clean s.garage) : (inGarage x).Clean s :=
  hx.within rfl

theorem clean_inParts {x : Change PartError PartRegistry α} (hx : x.Clean s.garage.parts) :
    (inParts x).Clean s := by
  refine Clean.within ?_ rfl
  exact hx

theorem clean_inCars {x : Change CarError CarRegistry α} (hx : x.Clean s.garage.cars) : (inCars x).Clean s := by
  refine Clean.within ?_ rfl
  exact hx

theorem clean_inMarket {x : Change MarketError Market α} (hx : x.Clean s.market) : (inMarket x).Clean s :=
  hx.within rfl

theorem clean_inWorkshop {work : Ledger → Change WorkshopError CarRegistry α}
    (hwork : (work s).Clean s.garage.cars) : (inWorkshop work).Clean s := by
  refine clean_get_bind (Clean.within ?_ rfl)
  exact hwork

theorem clean_byOperator {caller : AccountId} {event : Event} {x : Change LedgerError Ledger Unit}
    (hx : x.Clean s) : (byOperator hash caller event x).Clean s :=
  clean_check_bind fun _ _ => clean_recorded event hx

/-- A sale that was found possible is carried out to its end. -/
theorem succeeds_settle (hs : s.Coherent) {buyer : AccountId} {car : CarId} {payment : Amount}
    {plan : PurchasePlan} (h : s.market.plan s.garage buyer car payment = .ok plan) :
    (settle plan).Succeeds s := by
  obtain ⟨_, g', -, hrun, -⟩ := Market.exists_delivered_of_plan hs.sound h
  exact Succeeds.within ⟨(), (s.market.markSettled plan, g'), Market.settleInPlace_ok_iff.mpr ⟨hrun, rfl⟩⟩

theorem clean_buy (hs : s.Coherent) (buyer : AccountId) (car : CarId) (payment : Amount) :
    (buy hash buyer car payment).Clean s := by
  refine clean_check_bind fun plan hplan => clean_check_bind fun _ _ => clean_check_bind fun prepared _ => ?_
  have hsettle := succeeds_settle hs (mapError_eq_ok_iff.mp hplan)
  refine Succeeds.clean (Succeeds.bind (succeeds_recorded _ ?_) fun _ _ _ => succeeds_pure _)
  exact hsettle.bind fun _ t _ => succeeds_commitFunds prepared t

theorem clean_perform (hs : s.Coherent) (operation : Operation) : (perform hash operation).Clean s := by
  cases operation with
  | deposit => exact (clean_recorded _ ((Bank.clean_deposit _ _ _).within rfl)).map
  | withdraw =>
    refine Clean.map (clean_check_bind fun _ _ => clean_get_bind (clean_check_bind fun prepared _ => ?_))
    refine Succeeds.clean (Succeeds.bind (succeeds_recorded _ ?_) fun _ _ _ => succeeds_pure _)
    exact succeeds_commitFunds prepared s
  | mintCar =>
    refine Clean.map (clean_check_bind fun _ _ => clean_check_bind fun _ _ => clean_check_bind
      fun prepared _ => clean_check_bind fun _ _ => clean_recorded _ ?_)
    refine (clean_inGarage (Garage.clean_mint _ _ _ _)).bind fun _ t _ => ?_
    exact (succeeds_commitFunds prepared t).bind fun _ _ _ => succeeds_pure _
  | mintPart =>
    refine Clean.map (clean_check_bind fun _ _ => clean_check_bind fun _ _ => clean_check_bind fun _ _ => ?_)
    exact clean_recorded _ (clean_inParts (PartRegistry.clean_mint _ _ _ _))
  | equip => exact (clean_recorded _ (clean_inGarage (Garage.clean_equip _ _ _ _ _))).map
  | unequip => exact (clean_recorded _ (clean_inGarage (Garage.clean_unequip _ _ _ _))).map
  | replace => exact (clean_recorded _ (clean_inGarage (Garage.clean_replace _ _ _ _ _))).map
  | transferPart =>
    refine Clean.map (clean_check_bind fun _ _ => clean_recorded _ ?_)
    exact clean_inParts (PartRegistry.clean_transferFrom _ _ _ _)
  | transferCar =>
    refine Clean.map (clean_check_bind fun _ _ => clean_recorded _ ?_)
    exact (clean_inCars (CarRegistry.clean_transferFrom _ _ _ _)).bind fun _ _ _ => succeeds_modify _
  | approvePart => exact (clean_recorded _ (clean_inParts (PartRegistry.clean_approve _ _ _ _))).map
  | approveCar => exact (clean_recorded _ (clean_inCars (CarRegistry.clean_approve _ _ _ _))).map
  | approveAll => exact (clean_recorded _ (succeeds_modify _).clean).map
  | list => exact (clean_recorded _ (clean_get_bind (clean_inMarket (Market.clean_list _ _ _ _ _ _)))).map
  | cancel => exact (clean_recorded _ (clean_inMarket (Market.clean_cancel _ _ _))).map
  | buy buyer car payment => exact (clean_buy hs buyer car payment).map
  | repair =>
    refine Clean.map (clean_check_bind fun _ _ => clean_check_bind fun prepared _ => clean_recorded _ ?_)
    refine (clean_inWorkshop (Workshop.clean_repair _ _ _ _ _)).bind fun _ t _ => ?_
    exact (succeeds_commitFunds prepared t).bind fun _ _ _ => succeeds_pure _
  | wear => exact (clean_recorded _ (clean_inWorkshop (Workshop.clean_wear _ _ _ _ _ _))).map
  | race =>
    refine (clean_recorded _ (clean_get_bind ?_)).map
    exact (Leaderboard.clean_record _ _ _ _ _ s.leaderboard).within rfl
  | setMintPrice => exact (clean_byOperator (succeeds_modify _).clean).map
  | setRepairPrice => exact (clean_byOperator (succeeds_modify _).clean).map
  | setFee => exact (clean_byOperator (clean_inMarket (Market.clean_setFee _ _))).map
  | setAuthority => exact (clean_byOperator (succeeds_modify _).clean).map
  | transferOperator => exact (clean_byOperator (succeeds_modify _).clean).map
  | setBaseUri => exact (clean_byOperator (succeeds_modify _).clean).map

end Ledger

end Paddock
