import Paddock.Ledger.Operation
import Paddock.Proofs.Garage

/-! All that an operation on the ledger can do, one case for each. -/
namespace Paddock.Ledger

variable {hash : Hasher} {s s' t : Ledger} {α : Type} {a : α} {x : Change LedgerError Ledger α}

/-- An operation that is carried out, its answer, and the ledger after it. -/
inductive Step (hash : Hasher) (s : Ledger) : Operation → Reply → Ledger → Prop
  | deposit {account amount balance bank} (h : s.bank.deposit account amount = .ok (balance, bank)) :
      Step hash s (.deposit account amount) (.amount balance)
        ({ s with bank }.record hash (.deposited account amount))
  | withdraw {caller amount prepared} (hcaller : caller = s.operator)
      (hfunds : s.bank.prepare [⟨.treasury, .account caller, amount.getD s.bank.treasury⟩] = .ok prepared) :
      Step hash s (.withdraw caller amount) (.amount (amount.getD s.bank.treasury))
        ({ s with bank := s.bank.commit prepared }.record hash
          (.withdrawn caller (amount.getD s.bank.treasury)))
  | mintCar {caller request payment prepared car garage} (hprice : ¬ payment < s.mintPrice)
      (hfunds : s.bank.prepare [⟨.account caller, .treasury, payment⟩] = .ok prepared)
      (h : Garage.mintInPlace caller request.image request.parts s.garage = .ok car garage) :
      Step hash s (.mintCar caller request payment) (.car car)
        ({ s with garage, bank := s.bank.commit prepared }.record hash (.carMinted car caller payment))
  | mintPart {caller owner spec part parts} (hcaller : caller = s.operator)
      (h : s.garage.parts.mint owner spec none = .ok (part, parts)) :
      Step hash s (.mintPart caller owner spec) (.part part)
        ({ s with garage := { s.garage with parts } }.record hash (.partMinted part owner spec.kind))
  | equip {caller car part slot garage}
      (h : Garage.equipInPlace caller car part slot.toNat s.garage = .ok () garage) :
      Step hash s (.equip caller car part slot) .done
        ({ s with garage }.record hash (.partEquipped car part slot))
  | unequip {caller car part garage}
      (h : Garage.unequipInPlace caller car part s.garage = .ok () garage) :
      Step hash s (.unequip caller car part) .done
        ({ s with garage }.record hash (.partUnequipped car part))
  | replace {caller car old new garage}
      (h : Garage.replaceInPlace caller car old new s.garage = .ok () garage) :
      Step hash s (.replace caller car old new) .done
        ({ s with garage }.record hash (.partReplaced car old new))
  | transferPart {caller part target source parts} (hsource : s.garage.parts.ownerOf part = .ok source)
      (h : s.garage.parts.transferFrom caller part target = .ok parts) :
      Step hash s (.transferPart caller part target) .done
        ({ s with garage := { s.garage with parts } }.record hash (.partTransferred part source target))
  | transferCar {caller car target source cars} (hsource : s.garage.cars.ownerOf car = .ok source)
      (h : s.garage.cars.transferFrom caller car target = .ok cars) :
      Step hash s (.transferCar caller car target) .done
        ({ s with garage := { s.garage with cars }, market := s.market.invalidate car }.record hash
          (.carTransferred car source target))
  | approvePart {caller part account parts}
      (h : s.garage.parts.approve caller part account = .ok parts) :
      Step hash s (.approvePart caller part account) .done
        ({ s with garage := { s.garage with parts } }.record hash (.partApproved part account))
  | approveCar {caller car account cars} (h : s.garage.cars.approve caller car account = .ok cars) :
      Step hash s (.approveCar caller car account) .done
        ({ s with garage := { s.garage with cars } }.record hash (.carApproved car account))
  | approveAll {caller operator approved} :
      Step hash s (.approveAll caller operator approved) .done
        ((s.setOperator caller operator approved).record hash
          (.operatorApproval caller operator approved))
  | list {caller car price included market}
      (h : s.market.list s.garage caller car price included = .ok market) :
      Step hash s (.list caller car price included) .done
        ({ s with market }.record hash (.carListed car caller price included))
  | cancel {caller car market} (h : s.market.cancel caller car = .ok market) :
      Step hash s (.cancel caller car) .done ({ s with market }.record hash (.listingCancelled car))
  | buy {buyer car payment plan prepared market garage}
      (hplan : s.market.plan s.garage buyer car payment = .ok plan)
      (hpayment : s.bank.ensureFunds buyer payment = .ok ())
      (hfunds : s.bank.prepare (saleTransfers plan) = .ok prepared)
      (h : Market.settleInPlace plan (s.market, s.garage) = .ok () (market, garage)) :
      Step hash s (.buy buyer car payment) (.plan plan)
        ({ s with market, garage, bank := s.bank.commit prepared }.record hash (saleEvent plan))
  | repair {caller car payment prepared receipt cars charged}
      (hcheck : s.workshop.checkRepair s.garage.cars caller car payment = .ok charged)
      (hfunds : s.bank.prepare [⟨.account caller, .treasury, payment⟩] = .ok prepared)
      (h : s.workshop.repair s.garage.cars caller car payment = .ok (receipt, cars)) :
      Step hash s (.repair caller car payment) (.receipt receipt)
        ({ s with garage := { s.garage with cars }, bank := s.bank.commit prepared }.record hash
          (.carRepaired car payment))
  | wear {caller car amount condition cars}
      (h : s.workshop.wear s.garage.cars caller s.operator car amount = .ok (condition, cars)) :
      Step hash s (.wear caller car amount) (.condition condition)
        ({ s with garage := { s.garage with cars } }.record hash (.wearApplied car amount))
  | race {caller car score improved leaderboard}
      (h : s.leaderboard.record s.garage.cars caller s.operator car score = .ok (improved, leaderboard)) :
      Step hash s (.race caller car score) (.improved improved)
        ({ s with leaderboard }.record hash (.raceRecorded car score))
  | setMintPrice {caller price} (hcaller : caller = s.operator) :
      Step hash s (.setMintPrice caller price) .done
        ({ s with mintPrice := price }.record hash (.mintPriceSet price))
  | setRepairPrice {caller price} (hcaller : caller = s.operator) :
      Step hash s (.setRepairPrice caller price) .done
        ({ s with workshop := { s.workshop with repairPrice := price } }.record hash
          (.repairPriceSet price))
  | setFee {caller bps market} (hcaller : caller = s.operator) (h : s.market.setFee bps = .ok market) :
      Step hash s (.setFee caller bps) .done ({ s with market }.record hash (.protocolFeeSet bps))
  | setAuthority {caller role account} (hcaller : caller = s.operator) :
      Step hash s (.setAuthority caller role account) .done
        ((s.appoint role account).record hash (.authoritySet role account))
  | transferOperator {caller target} (hcaller : caller = s.operator) :
      Step hash s (.transferOperator caller target) .done
        ({ s with operator := target }.record hash (.operatorTransferred caller target))
  | setBaseUri {caller uri} (hcaller : caller = s.operator) :
      Step hash s (.setBaseUri caller uri) .done
        ({ s with baseUri := uri }.record hash (.baseUriSet uri))

theorem execute_eq_ok_iff {operation : Operation} {reply : Reply} :
    s.execute hash operation = (.ok reply, s') ↔ perform hash operation s = .ok reply s' := by
  unfold execute
  cases perform hash operation s <;> simp

theorem execute_eq_error_iff {operation : Operation} {e : LedgerError} :
    s.execute hash operation = (.error e, s') ↔ perform hash operation s = .error e s' := by
  unfold execute
  cases perform hash operation s <;> simp

theorem recorded_ok_iff {event : Event} :
    recorded hash event x s = .ok a s' ↔
      ∃ t, x s = .ok a t ∧ { t with journal := t.journal.commit (s.journal.prepare hash event) } = s' := by
  simp only [recorded, Change.get_bind_ok_iff]
  simp only [Change.bind_ok_iff, Change.modify_ok_iff, Change.pure_ok_iff]
  constructor
  · rintro ⟨_, t, hx, _, _, rfl, rfl, rfl⟩
    exact ⟨t, hx, rfl⟩
  · rintro ⟨t, hx, rfl⟩
    exact ⟨a, t, hx, ⟨⟩, _, rfl, rfl, rfl⟩

theorem ensureOperator_eq_ok_iff {caller : AccountId} {u : Unit} :
    s.ensureOperator caller = .ok u ↔ caller = s.operator := by
  unfold ensureOperator
  split <;> simp_all

theorem byOperator_ok_iff {caller : AccountId} {event : Event} {x : Change LedgerError Ledger Unit}
    {u : Unit} : byOperator hash caller event x s = .ok u s' ↔
      caller = s.operator ∧ recorded hash event x s = .ok u s' := by
  simp only [byOperator, Change.check_bind_ok_iff, ensureOperator_eq_ok_iff, exists_const]

theorem prepare_eq_ok_iff {transfers : List Transfer} {prepared : Prepared} :
    s.prepare transfers = .ok prepared ↔ s.bank.prepare transfers = .ok prepared :=
  mapError_eq_ok_iff

theorem inWorkshop_ok_iff {work : Ledger → Change WorkshopError CarRegistry α} :
    inWorkshop work s = .ok a s' ↔
      ∃ cars, work s s.garage.cars = .ok a cars ∧ { s with garage := { s.garage with cars } } = s' := by
  simp only [inWorkshop, Change.get_bind_ok_iff, Change.within_ok_iff]

theorem checkMintPrice_eq_ok_iff {payment : Amount} {u : Unit} :
    s.checkMintPrice payment = .ok u ↔ ¬ payment < s.mintPrice := by
  unfold checkMintPrice
  split <;> simp_all

theorem commitFunds_ok_iff {prepared : Prepared} {u : Unit} :
    commitFunds prepared s = .ok u s' ↔ { s with bank := s.bank.commit prepared } = s' :=
  Change.modify_ok_iff

theorem withdraw_ok_iff {caller : AccountId} {amount : Option Amount} {taken : Amount} :
    withdraw hash caller amount s = .ok taken s' ↔
      caller = s.operator ∧ amount.getD s.bank.treasury = taken ∧
        ∃ prepared, s.bank.prepare [⟨.treasury, .account caller, taken⟩] = .ok prepared ∧
          ({ s with bank := s.bank.commit prepared } : Ledger).record hash (.withdrawn caller taken) = s' := by
  simp only [withdraw, Change.check_bind_ok_iff, Change.get_bind_ok_iff, ensureOperator_eq_ok_iff,
    prepare_eq_ok_iff]
  simp only [Change.bind_ok_iff, Change.pure_ok_iff, recorded_ok_iff, commitFunds_ok_iff]
  constructor
  · rintro ⟨_, hcaller, prepared, hfunds, _, _, ⟨_, rfl, rfl⟩, rfl, rfl⟩
    exact ⟨hcaller, rfl, prepared, hfunds, rfl⟩
  · rintro ⟨hcaller, rfl, prepared, hfunds, rfl⟩
    exact ⟨(), hcaller, prepared, hfunds, (), _, ⟨_, rfl, rfl⟩, rfl, rfl⟩

theorem mintCar_ok_iff {caller : AccountId} {request : MintRequest} {payment : Amount} {car : CarId} :
    mintCar hash caller request payment s = .ok car s' ↔
      ¬ payment < s.mintPrice ∧
        ∃ prepared garage, s.bank.prepare [⟨.account caller, .treasury, payment⟩] = .ok prepared ∧
          Garage.mintInPlace caller request.image request.parts s.garage = .ok car garage ∧
          ({ s with garage, bank := s.bank.commit prepared } : Ledger).record hash
            (.carMinted car caller payment) = s' := by
  simp only [mintCar, inGarage, Change.check_bind_ok_iff, recorded_ok_iff, checkMintPrice_eq_ok_iff,
    prepare_eq_ok_iff, mapError_eq_ok_iff]
  simp only [Change.bind_ok_iff, Change.pure_ok_iff, Change.within_ok_iff, commitFunds_ok_iff]
  constructor
  · rintro ⟨_, hprice, _, -, prepared, hfunds, next, hnext, _, ⟨_, _, ⟨garage, h, rfl⟩, _, _, rfl, rfl, rfl⟩, rfl⟩
    -- The number that the event was given is the one that the car gets.
    obtain ⟨_, _, hcar, _⟩ := Garage.mintInPlace_ok_iff.mp h
    cases hcar.symm.trans hnext
    exact ⟨hprice, prepared, garage, hfunds, h, rfl⟩
  · rintro ⟨hprice, prepared, garage, hfunds, h, rfl⟩
    obtain ⟨arranged, hvalid, hcar, -⟩ := Garage.mintInPlace_ok_iff.mp h
    exact ⟨(), hprice, arranged, hvalid, prepared, hfunds, car, hcar, _,
      ⟨_, _, ⟨garage, h, rfl⟩, (), _, rfl, rfl, rfl⟩, rfl⟩

theorem mintPart_ok_iff {caller owner : AccountId} {spec : PartSpec} {part : PartId} :
    mintPart hash caller owner spec s = .ok part s' ↔
      caller = s.operator ∧
        ∃ parts, s.garage.parts.mint owner spec none = .ok (part, parts) ∧
          ({ s with garage := { s.garage with parts } } : Ledger).record hash
            (.partMinted part owner spec.kind) = s' := by
  simp only [mintPart, inParts, Change.check_bind_ok_iff, Change.within_ok_iff, recorded_ok_iff,
    ensureOperator_eq_ok_iff, mapError_eq_ok_iff]
  constructor
  · rintro ⟨_, hcaller, _, -, next, hnext, _, ⟨parts, h, rfl⟩, rfl⟩
    have h := Change.outcome_ok_iff.mpr h
    obtain ⟨_, _, rfl, _⟩ := PartRegistry.mint_eq_ok_iff.mp h
    obtain ⟨_, rfl⟩ := PartRegistry.nextId_eq_ok_iff.mp hnext
    exact ⟨hcaller, parts, h, rfl⟩
  · rintro ⟨hcaller, parts, h, rfl⟩
    obtain ⟨hvalid, hroom, rfl, -⟩ := PartRegistry.mint_eq_ok_iff.mp h
    have hnext := PartRegistry.nextId_eq_ok_iff.mpr ⟨hroom, rfl⟩
    exact ⟨(), hcaller, (), hvalid, _, hnext, _, ⟨parts, Change.outcome_ok_iff.mp h, rfl⟩, rfl⟩

theorem transferCar_ok_iff {caller target : AccountId} {car : CarId} {u : Unit} :
    transferCar hash caller car target s = .ok u s' ↔
      ∃ source cars, s.garage.cars.ownerOf car = .ok source ∧
        s.garage.cars.transferFrom caller car target = .ok cars ∧
        ({ s with garage := { s.garage with cars }, market := s.market.invalidate car } : Ledger).record hash
          (.carTransferred car source target) = s' := by
  simp only [transferCar, inCars, Change.check_bind_ok_iff, recorded_ok_iff, mapError_eq_ok_iff]
  simp only [Change.bind_ok_iff, Change.within_ok_iff, Change.modify_ok_iff]
  constructor
  · rintro ⟨source, hsource, _, ⟨_, _, ⟨cars, h, rfl⟩, rfl⟩, rfl⟩
    exact ⟨source, cars, hsource, Change.outcome_state_iff.mpr h, rfl⟩
  · rintro ⟨source, cars, hsource, h, rfl⟩
    exact ⟨source, hsource, _, ⟨(), _, ⟨cars, Change.outcome_state_iff.mp h, rfl⟩, rfl⟩, rfl⟩

theorem buy_ok_iff {buyer : AccountId} {car : CarId} {payment : Amount} {plan : PurchasePlan} :
    buy hash buyer car payment s = .ok plan s' ↔
      s.market.plan s.garage buyer car payment = .ok plan ∧
        s.bank.ensureFunds buyer payment = .ok () ∧
        ∃ prepared market garage, s.bank.prepare (saleTransfers plan) = .ok prepared ∧
          Market.settleInPlace plan (s.market, s.garage) = .ok () (market, garage) ∧
          ({ s with market, garage, bank := s.bank.commit prepared } : Ledger).record hash
            (saleEvent plan) = s' := by
  simp only [buy, settle, Change.check_bind_ok_iff, mapError_eq_ok_iff, prepare_eq_ok_iff]
  simp only [Change.bind_ok_iff, Change.pure_ok_iff, recorded_ok_iff, Change.within_ok_iff, commitFunds_ok_iff]
  constructor
  · rintro ⟨plan', hplan, _, hpayment, prepared, hfunds, _, _, ⟨_, ⟨_, _, ⟨⟨market, garage⟩, h, rfl⟩, rfl⟩, rfl⟩,
      rfl, rfl⟩
    exact ⟨hplan, hpayment, prepared, market, garage, hfunds, h, rfl⟩
  · rintro ⟨hplan, hpayment, prepared, market, garage, hfunds, h, rfl⟩
    exact ⟨plan, hplan, (), hpayment, prepared, hfunds, (), _, ⟨_, ⟨(), _, ⟨(market, garage), h, rfl⟩, rfl⟩, rfl⟩,
      rfl, rfl⟩

theorem repair_ok_iff {caller : AccountId} {car : CarId} {payment : Amount} {receipt : RepairReceipt} :
    repair hash caller car payment s = .ok receipt s' ↔
      ∃ charged prepared cars, s.workshop.checkRepair s.garage.cars caller car payment = .ok charged ∧
        s.bank.prepare [⟨.account caller, .treasury, payment⟩] = .ok prepared ∧
        s.workshop.repair s.garage.cars caller car payment = .ok (receipt, cars) ∧
        ({ s with garage := { s.garage with cars }, bank := s.bank.commit prepared } : Ledger).record hash
          (.carRepaired car payment) = s' := by
  simp only [repair, Change.check_bind_ok_iff, recorded_ok_iff, prepare_eq_ok_iff, mapError_eq_ok_iff]
  simp only [Change.bind_ok_iff, Change.pure_ok_iff, inWorkshop_ok_iff, commitFunds_ok_iff]
  constructor
  · rintro ⟨charged, hcheck, prepared, hfunds, _, ⟨_, _, ⟨cars, h, rfl⟩, _, _, rfl, rfl, rfl⟩, rfl⟩
    exact ⟨charged, prepared, cars, hcheck, hfunds, Change.outcome_ok_iff.mpr h, rfl⟩
  · rintro ⟨charged, prepared, cars, hcheck, hfunds, h, rfl⟩
    have h := Change.outcome_ok_iff.mp h
    exact ⟨charged, hcheck, prepared, hfunds, _, ⟨_, _, ⟨cars, h, rfl⟩, (), _, rfl, rfl, rfl⟩, rfl⟩

/-- The operations that `execute` carries out are the steps. -/
theorem execute_eq_ok_iff_step {operation : Operation} {reply : Reply} :
    s.execute hash operation = (.ok reply, s') ↔ Step hash s operation reply s' := by
  rw [execute_eq_ok_iff]
  cases operation with
  | deposit account amount =>
    simp only [perform, deposit, inBank, Change.map_ok_iff, recorded_ok_iff, Change.within_ok_iff]
    constructor
    · rintro ⟨balance, ⟨_, ⟨bank, h, rfl⟩, rfl⟩, rfl⟩
      exact .deposit (Change.outcome_ok_iff.mpr h)
    · intro h
      cases h with
      | deposit h => exact ⟨_, ⟨_, ⟨_, Change.outcome_ok_iff.mp h, rfl⟩, rfl⟩, rfl⟩
  | withdraw caller amount =>
    simp only [perform, Change.map_ok_iff, withdraw_ok_iff]
    constructor
    · rintro ⟨_, ⟨hcaller, rfl, prepared, hfunds, rfl⟩, rfl⟩
      exact .withdraw hcaller hfunds
    · intro h
      cases h with
      | withdraw hcaller hfunds => exact ⟨_, ⟨hcaller, rfl, _, hfunds, rfl⟩, rfl⟩
  | mintCar caller request payment =>
    simp only [perform, Change.map_ok_iff, mintCar_ok_iff]
    constructor
    · rintro ⟨car, ⟨hprice, prepared, garage, hfunds, h, rfl⟩, rfl⟩
      exact .mintCar hprice hfunds h
    · intro h
      cases h with
      | mintCar hprice hfunds h => exact ⟨_, ⟨hprice, _, _, hfunds, h, rfl⟩, rfl⟩
  | mintPart caller owner spec =>
    simp only [perform, Change.map_ok_iff, mintPart_ok_iff]
    constructor
    · rintro ⟨part, ⟨hcaller, parts, h, rfl⟩, rfl⟩
      exact .mintPart hcaller h
    · intro h
      cases h with
      | mintPart hcaller h => exact ⟨_, ⟨hcaller, _, h, rfl⟩, rfl⟩
  | equip caller car part slot =>
    simp only [perform, equip, inGarage, Change.map_ok_iff, Change.within_ok_iff, recorded_ok_iff]
    constructor
    · rintro ⟨_, ⟨_, ⟨garage, h, rfl⟩, rfl⟩, rfl⟩
      exact .equip h
    · intro h
      cases h with
      | equip h => exact ⟨(), ⟨_, ⟨_, h, rfl⟩, rfl⟩, rfl⟩
  | unequip caller car part =>
    simp only [perform, unequip, inGarage, Change.map_ok_iff, Change.within_ok_iff, recorded_ok_iff]
    constructor
    · rintro ⟨_, ⟨_, ⟨garage, h, rfl⟩, rfl⟩, rfl⟩
      exact .unequip h
    · intro h
      cases h with
      | unequip h => exact ⟨(), ⟨_, ⟨_, h, rfl⟩, rfl⟩, rfl⟩
  | replace caller car old new =>
    simp only [perform, replace, inGarage, Change.map_ok_iff, Change.within_ok_iff, recorded_ok_iff]
    constructor
    · rintro ⟨_, ⟨_, ⟨garage, h, rfl⟩, rfl⟩, rfl⟩
      exact .replace h
    · intro h
      cases h with
      | replace h => exact ⟨(), ⟨_, ⟨_, h, rfl⟩, rfl⟩, rfl⟩
  | transferPart caller part target =>
    simp only [perform, transferPart, inParts, Change.map_ok_iff, Change.check_bind_ok_iff, Change.within_ok_iff,
      recorded_ok_iff, mapError_eq_ok_iff]
    constructor
    · rintro ⟨_, ⟨source, hsource, _, ⟨parts, h, rfl⟩, rfl⟩, rfl⟩
      exact .transferPart hsource (Change.outcome_state_iff.mpr h)
    · intro h
      cases h with
      | transferPart hsource h =>
        exact ⟨(), ⟨_, hsource, _, ⟨_, Change.outcome_state_iff.mp h, rfl⟩, rfl⟩, rfl⟩
  | transferCar caller car target =>
    simp only [perform, Change.map_ok_iff, transferCar_ok_iff]
    constructor
    · rintro ⟨_, ⟨source, cars, hsource, h, rfl⟩, rfl⟩
      exact .transferCar hsource h
    · intro h
      cases h with
      | transferCar hsource h => exact ⟨(), ⟨_, _, hsource, h, rfl⟩, rfl⟩
  | approvePart caller part account =>
    simp only [perform, approvePart, inParts, Change.map_ok_iff, Change.within_ok_iff, recorded_ok_iff]
    constructor
    · rintro ⟨_, ⟨_, ⟨parts, h, rfl⟩, rfl⟩, rfl⟩
      exact .approvePart (Change.outcome_state_iff.mpr h)
    · intro h
      cases h with
      | approvePart h => exact ⟨(), ⟨_, ⟨_, Change.outcome_state_iff.mp h, rfl⟩, rfl⟩, rfl⟩
  | approveCar caller car account =>
    simp only [perform, approveCar, inCars, Change.map_ok_iff, Change.within_ok_iff, recorded_ok_iff]
    constructor
    · rintro ⟨_, ⟨_, ⟨cars, h, rfl⟩, rfl⟩, rfl⟩
      exact .approveCar (Change.outcome_state_iff.mpr h)
    · intro h
      cases h with
      | approveCar h => exact ⟨(), ⟨_, ⟨_, Change.outcome_state_iff.mp h, rfl⟩, rfl⟩, rfl⟩
  | approveAll caller operator approved =>
    simp only [perform, approveAll, Change.map_ok_iff, Change.modify_ok_iff, recorded_ok_iff]
    constructor
    · rintro ⟨_, ⟨_, rfl, rfl⟩, rfl⟩
      exact .approveAll
    · intro h
      cases h with
      | approveAll => exact ⟨(), ⟨_, rfl, rfl⟩, rfl⟩
  | list caller car price included =>
    simp only [perform, list, inMarket, Change.map_ok_iff, Change.get_bind_ok_iff, Change.within_ok_iff,
      recorded_ok_iff]
    constructor
    · rintro ⟨_, ⟨_, ⟨market, h, rfl⟩, rfl⟩, rfl⟩
      exact .list (Change.outcome_state_iff.mpr h)
    · intro h
      cases h with
      | list h => exact ⟨(), ⟨_, ⟨_, Change.outcome_state_iff.mp h, rfl⟩, rfl⟩, rfl⟩
  | cancel caller car =>
    simp only [perform, cancel, inMarket, Change.map_ok_iff, Change.within_ok_iff, recorded_ok_iff]
    constructor
    · rintro ⟨_, ⟨_, ⟨market, h, rfl⟩, rfl⟩, rfl⟩
      exact .cancel (Change.outcome_state_iff.mpr h)
    · intro h
      cases h with
      | cancel h => exact ⟨(), ⟨_, ⟨_, Change.outcome_state_iff.mp h, rfl⟩, rfl⟩, rfl⟩
  | buy buyer car payment =>
    simp only [perform, Change.map_ok_iff, buy_ok_iff]
    constructor
    · rintro ⟨plan, ⟨hplan, hpayment, prepared, market, garage, hfunds, h, rfl⟩, rfl⟩
      exact .buy hplan hpayment hfunds h
    · intro h
      cases h with
      | buy hplan hpayment hfunds h => exact ⟨_, ⟨hplan, hpayment, _, _, _, hfunds, h, rfl⟩, rfl⟩
  | repair caller car payment =>
    simp only [perform, Change.map_ok_iff, repair_ok_iff]
    constructor
    · rintro ⟨receipt, ⟨charged, prepared, cars, hcheck, hfunds, h, rfl⟩, rfl⟩
      exact .repair hcheck hfunds h
    · intro h
      cases h with
      | repair hcheck hfunds h => exact ⟨_, ⟨_, _, _, hcheck, hfunds, h, rfl⟩, rfl⟩
  | wear caller car amount =>
    simp only [perform, wear, Change.map_ok_iff, recorded_ok_iff, inWorkshop_ok_iff]
    constructor
    · rintro ⟨condition, ⟨_, ⟨cars, h, rfl⟩, rfl⟩, rfl⟩
      exact .wear (Change.outcome_ok_iff.mpr h)
    · intro h
      cases h with
      | wear h => exact ⟨_, ⟨_, ⟨_, Change.outcome_ok_iff.mp h, rfl⟩, rfl⟩, rfl⟩
  | race caller car score =>
    simp only [perform, race, Change.map_ok_iff, Change.get_bind_ok_iff, Change.within_ok_iff, recorded_ok_iff]
    constructor
    · rintro ⟨improved, ⟨_, ⟨leaderboard, h, rfl⟩, rfl⟩, rfl⟩
      exact .race (Change.outcome_ok_iff.mpr h)
    · intro h
      cases h with
      | race h => exact ⟨_, ⟨_, ⟨_, Change.outcome_ok_iff.mp h, rfl⟩, rfl⟩, rfl⟩
  | setMintPrice caller price =>
    simp only [perform, setMintPrice, Change.map_ok_iff, byOperator_ok_iff, recorded_ok_iff,
      Change.modify_ok_iff]
    constructor
    · rintro ⟨_, ⟨hcaller, _, rfl, rfl⟩, rfl⟩
      exact .setMintPrice hcaller
    · intro h
      cases h with
      | setMintPrice hcaller => exact ⟨(), ⟨hcaller, _, rfl, rfl⟩, rfl⟩
  | setRepairPrice caller price =>
    simp only [perform, setRepairPrice, Change.map_ok_iff, byOperator_ok_iff, recorded_ok_iff,
      Change.modify_ok_iff]
    constructor
    · rintro ⟨_, ⟨hcaller, _, rfl, rfl⟩, rfl⟩
      exact .setRepairPrice hcaller
    · intro h
      cases h with
      | setRepairPrice hcaller => exact ⟨(), ⟨hcaller, _, rfl, rfl⟩, rfl⟩
  | setFee caller bps =>
    simp only [perform, setFee, inMarket, Change.map_ok_iff, byOperator_ok_iff, recorded_ok_iff,
      Change.within_ok_iff]
    constructor
    · rintro ⟨_, ⟨hcaller, _, ⟨market, h, rfl⟩, rfl⟩, rfl⟩
      exact .setFee hcaller (Change.outcome_state_iff.mpr h)
    · intro h
      cases h with
      | setFee hcaller h => exact ⟨(), ⟨hcaller, _, ⟨_, Change.outcome_state_iff.mp h, rfl⟩, rfl⟩, rfl⟩
  | setAuthority caller role account =>
    simp only [perform, setAuthority, Change.map_ok_iff, byOperator_ok_iff, recorded_ok_iff,
      Change.modify_ok_iff]
    constructor
    · rintro ⟨_, ⟨hcaller, _, rfl, rfl⟩, rfl⟩
      rw [show s.journal = (s.appoint role account).journal by cases role <;> rfl]
      exact .setAuthority hcaller
    · intro h
      cases h with
      | @setAuthority _ role _ hcaller =>
        cases role <;> exact ⟨(), ⟨hcaller, _, rfl, rfl⟩, rfl⟩
  | transferOperator caller target =>
    simp only [perform, transferOperator, Change.map_ok_iff, byOperator_ok_iff, recorded_ok_iff,
      Change.modify_ok_iff]
    constructor
    · rintro ⟨_, ⟨hcaller, _, rfl, rfl⟩, rfl⟩
      exact .transferOperator hcaller
    · intro h
      cases h with
      | transferOperator hcaller => exact ⟨(), ⟨hcaller, _, rfl, rfl⟩, rfl⟩
  | setBaseUri caller uri =>
    simp only [perform, setBaseUri, Change.map_ok_iff, byOperator_ok_iff, recorded_ok_iff,
      Change.modify_ok_iff]
    constructor
    · rintro ⟨_, ⟨hcaller, _, rfl, rfl⟩, rfl⟩
      exact .setBaseUri hcaller
    · intro h
      cases h with
      | setBaseUri hcaller => exact ⟨(), ⟨hcaller, _, rfl, rfl⟩, rfl⟩

theorem step_of_execute {operation : Operation} {reply : Reply}
    (h : s.execute hash operation = (.ok reply, s')) : Step hash s operation reply s' :=
  execute_eq_ok_iff_step.mp h

end Paddock.Ledger
