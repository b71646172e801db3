import Paddock.Proofs.Journal
import Paddock.Proofs.Outline
import Paddock.Proofs.Purchase

/-!
A journal can be replayed. Events leave out who called, what was attached beyond a price, and which
specs and images were minted from; the first two do not matter, and the last is all that is lost.
-/
namespace Paddock

namespace Ledger

variable {hash : Hasher} {s s' start : Ledger} {p : PartId} {c : CarId} {a : AccountId}
  {operation : Operation} {reply : Reply}

/-- The ledger without the stats and images of parts, and without the images of cars. -/
def outline (s : Ledger) : Ledger := { s with garage := s.garage.outline }

/-! ### Events as operations -/

/-- The owner of a part; the operator stands in where there is none. -/
def partOwner (s : Ledger) (p : PartId) : AccountId :=
  (s.garage.parts.ownerOf p).toOption.getD s.operator

def carOwner (s : Ledger) (c : CarId) : AccountId :=
  (s.garage.cars.ownerOf c).toOption.getD s.operator

def seller (s : Ledger) (c : CarId) : AccountId :=
  ((s.market.listing? c).map Listing.seller).getD s.operator

/-- An operation that makes the event happen, as far as the event tells. Owners do what only owners may
do, and the operator does the rest. -/
def operationOf (s : Ledger) : Event → Operation
  | .deposited account amount => .deposit account amount
  | .carMinted _ owner paid => .mintCar owner ⟨"", Garage.blanks⟩ paid
  | .partMinted _ owner kind => .mintPart s.operator owner (.blank kind)
  | .partEquipped car part slot => .equip (s.carOwner car) car part slot
  | .partUnequipped car part => .unequip (s.carOwner car) car part
  | .partReplaced car old new => .replace (s.carOwner car) car old new
  | .partTransferred part source target => .transferPart source part target
  | .carTransferred car source target => .transferCar source car target
  | .partApproved part approved => .approvePart (s.partOwner part) part approved
  | .carApproved car approved => .approveCar (s.carOwner car) car approved
  | .operatorApproval owner operator approved => .approveAll owner operator approved
  | .carListed car seller price included => .list seller car price included
  | .listingCancelled car => .cancel (s.seller car) car
  | .carSold car _ buyer price _ _ => .buy buyer car price
  | .carRepaired car paid => .repair (s.carOwner car) car paid
  | .wearApplied car amount => .wear s.operator car amount
  | .raceRecorded car score => .race s.operator car score
  | .mintPriceSet price => .setMintPrice s.operator price
  | .repairPriceSet price => .setRepairPrice s.operator price
  | .protocolFeeSet bps => .setFee s.operator bps
  | .authoritySet role account => .setAuthority s.operator role account
  | .withdrawn target amount => .withdraw target (some amount)
  | .operatorTransferred source target => .transferOperator source target
  | .baseUriSet uri => .setBaseUri s.operator uri

theorem partOwner_outline {part : Part} (h : s.garage.parts.parts.get? p = some part) :
    s.outline.partOwner p = part.owner := by
  have howner := PartRegistry.ownerOf_eq_ok_iff.mpr ⟨part, h, rfl⟩
  rw [← PartRegistry.ownerOf_outline] at howner
  exact congrArg (·.toOption.getD s.operator) howner

theorem carOwner_outline {car : Car} (h : s.garage.cars.cars.get? c = some car) :
    s.outline.carOwner c = car.owner := by
  have howner := CarRegistry.ownerOf_eq_ok_iff.mpr ⟨car, h, rfl⟩
  rw [← CarRegistry.ownerOf_outline] at howner
  exact congrArg (·.toOption.getD s.operator) howner

theorem seller_outline {l : Listing} (h : s.market.listing? c = some l) : s.outline.seller c = l.seller := by
  change ((s.market.listing? c).map Listing.seller).getD s.operator = _
  rw [h]
  rfl

/-- Between two outlines, what an event stands for leads where the step led that wrote it. -/
theorem outline_step (h : Step hash s operation reply s') :
    ∃ event reply', s'.journal = s.journal.append hash event ∧
      Step hash s.outline (s.outline.operationOf event) reply' s'.outline := by
  cases h with
  | deposit h => exact ⟨_, _, rfl, .deposit h⟩
  | withdraw hcaller hfunds => exact ⟨_, _, rfl, .withdraw hcaller hfunds⟩
  | mintCar hprice hfunds h => exact ⟨_, _, rfl, .mintCar hprice hfunds (Garage.mint_outline h)⟩
  | mintPart _ h => exact ⟨_, _, rfl, .mintPart rfl (PartRegistry.mint_outline h)⟩
  | equip h =>
    obtain ⟨_, car, _, -, hcar, rfl, -⟩ := Garage.equipInPlace_ok_iff.mp h
    have howner := carOwner_outline hcar
    refine ⟨_, .done, rfl, ?_⟩
    rw [operationOf, howner]
    exact .equip (Garage.respects_equip _ _ _ _ h)
  | unequip h =>
    obtain ⟨_, car, _, hcar, rfl, -⟩ := Garage.unequipInPlace_ok_iff.mp h
    have howner := carOwner_outline hcar
    refine ⟨_, .done, rfl, ?_⟩
    rw [operationOf, howner]
    exact .unequip (Garage.respects_unequip _ _ _ h)
  | replace h =>
    obtain ⟨_, car, _, _, hcar, rfl, -⟩ := Garage.replaceInPlace_ok_iff.mp h
    have howner := carOwner_outline hcar
    refine ⟨_, .done, rfl, ?_⟩
    rw [operationOf, howner]
    exact .replace (Garage.respects_replace _ _ _ _ h)
  | transferPart hsource h =>
    have hsource' := (PartRegistry.ownerOf_outline _ _).trans hsource
    exact ⟨_, _, rfl, .transferPart hsource' (PartRegistry.transferFrom_outline hsource h)⟩
  | transferCar hsource h =>
    have hsource' := (CarRegistry.ownerOf_outline _ _).trans hsource
    exact ⟨_, _, rfl, .transferCar hsource' (CarRegistry.transferFrom_outline hsource h)⟩
  | approvePart h =>
    obtain ⟨part, hpart, -, rfl⟩ := PartRegistry.approve_eq_ok_iff.mp h
    have howner := partOwner_outline hpart
    refine ⟨_, .done, rfl, ?_⟩
    rw [operationOf, howner]
    exact .approvePart (PartRegistry.approve_eq_ok_iff.mpr
      ⟨part.outline, PartRegistry.get?_outline hpart, .inl rfl, rfl⟩)
  | approveCar h =>
    obtain ⟨car, hcar, -, rfl⟩ := CarRegistry.approve_eq_ok_iff.mp h
    have howner := carOwner_outline hcar
    refine ⟨_, .done, rfl, ?_⟩
    rw [operationOf, howner]
    exact .approveCar (CarRegistry.approve_eq_ok_iff.mpr
      ⟨car.outline, CarRegistry.get?_outline hcar, .inl rfl, rfl⟩)
  | approveAll => exact ⟨_, _, rfl, .approveAll⟩
  | list h => exact ⟨_, _, rfl, .list (Market.list_outline h)⟩
  | cancel h =>
    obtain ⟨l, hl, -, rfl, -⟩ := Market.cancel_eq_ok_iff.mp h
    have hseller := seller_outline hl
    refine ⟨_, .done, rfl, ?_⟩
    rw [operationOf, hseller]
    exact .cancel h
  | @buy _ _ _ plan _ _ _ hplan hpayment hfunds h =>
    have hpaid : s.bank.ensureFunds plan.buyer plan.price = .ok () := by
      obtain ⟨l, car, fee, -, -, hprice, -, -, -, -, -, rfl⟩ := Market.plan_eq_ok_iff.mp hplan
      exact ensureFunds_eq_ok_iff.mpr (Nat.le_trans hprice (ensureFunds_eq_ok_iff.mp hpayment))
    exact ⟨_, .plan plan.atPrice, rfl,
      .buy (Market.plan_outline hplan) hpaid hfunds (Market.settle_outline h)⟩
  | @repair _ _ _ _ receipt _ _ hcheck hfunds h =>
    obtain ⟨car, hcar, rfl, -⟩ := Workshop.checkRepair_eq_ok_iff.mp hcheck
    have howner := carOwner_outline hcar
    have hchecked := Workshop.checkRepair_outline hcheck
    have hrepaired := Workshop.repair_outline h
    refine ⟨_, .receipt receipt, rfl, ?_⟩
    rw [operationOf, howner]
    exact .repair hchecked hfunds hrepaired
  | wear h => exact ⟨_, _, rfl, .wear (Workshop.wear_outline h)⟩
  | race h => exact ⟨_, _, rfl, .race (Leaderboard.record_outline h)⟩
  | setMintPrice => exact ⟨_, _, rfl, .setMintPrice rfl⟩
  | setRepairPrice => exact ⟨_, _, rfl, .setRepairPrice rfl⟩
  | setFee _ h => exact ⟨_, _, rfl, .setFee rfl h⟩
  | @setAuthority _ role _ _ => cases role <;> exact ⟨_, _, rfl, .setAuthority rfl⟩
  | transferOperator hcaller => exact ⟨_, _, rfl, .transferOperator hcaller⟩
  | setBaseUri => exact ⟨_, _, rfl, .setBaseUri rfl⟩

/-! ### Journals as runs -/

/-- What the events of a journal make of a ledger. -/
def replay (hash : Hasher) (s : Ledger) (events : List Event) : Ledger :=
  events.foldl (fun s event => (s.execute hash (s.operationOf event)).2) s

theorem replay_execute (hs : s.Coherent) (operation : Operation) :
    ∃ events, (s.execute hash operation).2.journal.events = s.journal.events ++ events ∧
      (s.execute hash operation).2.outline = s.outline.replay hash events := by
  rcases execute_cases hs operation with hsame | ⟨reply, hstep⟩
  · exact ⟨[], by rw [hsame, List.append_nil], by rw [hsame]; rfl⟩
  · obtain ⟨event, reply', hjournal, houtline⟩ := outline_step hstep
    refine ⟨[event], by rw [hjournal, Journal.events_append], ?_⟩
    change _ = (s.outline.execute hash (s.outline.operationOf event)).2
    rw [execute_eq_ok_iff_step.mpr houtline]

theorem replay_run (hs : s.Coherent) (operations : List Operation) :
    ∃ events, (s.run hash operations).journal.events = s.journal.events ++ events ∧
      (s.run hash operations).outline = s.outline.replay hash events := by
  induction operations generalizing s with
  | nil => exact ⟨[], (List.append_nil _).symm, rfl⟩
  | cons operation rest ih =>
    obtain ⟨first, hfirst, houtline⟩ := replay_execute hs operation
    obtain ⟨later, hlater, houtline'⟩ := ih (coherent_execute hs operation)
    refine ⟨first ++ later, ?_, ?_⟩
    · change ((s.execute hash operation).2.run hash rest).journal.events = _
      rw [hlater, hfirst, List.append_assoc]
    · change ((s.execute hash operation).2.run hash rest).outline = _
      rw [houtline', houtline, replay, replay, replay, List.foldl_append]

/-- Two runs that tell the same lead to the same ledger, but for stats and images. -/
theorem outline_determined_by_journal {operator : AccountId} {config : LedgerConfig}
    (hstart : genesis hash operator config = .ok start) (operations operations' : List Operation)
    (h : (start.run hash operations).journal.events = (start.run hash operations').journal.events) :
    (start.run hash operations).outline = (start.run hash operations').outline := by
  have hs := coherent_genesis hstart
  obtain ⟨events, hevents, houtline⟩ := replay_run hs operations
  obtain ⟨events', hevents', houtline'⟩ := replay_run hs operations'
  rw [hevents, hevents', List.append_cancel_left_eq] at h
  rw [houtline, houtline', h]

namespace Fair

/-- The same business, though someone else tries to set a price, the car is minted from other specs in
another order, and more is attached to the purchase. -/
def retold : List Operation := [
  .deposit (account 2) 1000,
  .setMintPrice (account 5) 7,
  .mintCar (account 1) ⟨"car", [spec .wheels, ⟨.engine, ⟨4, 5, 6⟩, "engine"⟩, spec .transmission]⟩ 0,
  .approveAll (account 1) (account 0) true,
  .list (account 1) ⟨1⟩ 400 ⟨true, true, false⟩,
  .buy (account 2) ⟨1⟩ 700]

end Fair

theorem outline_determined_by_journal_fair :
    genesis Fair.hasher (Fair.account 9) Fair.terms = .ok Fair.opening ∧
    (Fair.opening.run Fair.hasher Fair.trade).journal.events =
      (Fair.opening.run Fair.hasher Fair.retold).journal.events ∧
    (Fair.opening.run Fair.hasher Fair.trade).garage ≠
      (Fair.opening.run Fair.hasher Fair.retold).garage ∧
    (Fair.opening.run Fair.hasher Fair.trade).outline =
      (Fair.opening.run Fair.hasher Fair.retold).outline := by
  have hgenesis : genesis Fair.hasher (Fair.account 9) Fair.terms = .ok Fair.opening := rfl
  have hevents : (Fair.opening.run Fair.hasher Fair.trade).journal.events =
      (Fair.opening.run Fair.hasher Fair.retold).journal.events := by decide +kernel
  exact ⟨hgenesis, hevents, by decide +kernel,
    outline_determined_by_journal hgenesis Fair.trade Fair.retold hevents⟩

end Ledger

end Paddock
