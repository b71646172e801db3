import Paddock.Proofs.Funds
import Paddock.Proofs.Leaderboard
import Paddock.Proofs.Listings
import Paddock.Proofs.Movement
import Paddock.Proofs.Supply

/-! Who may change what: the operator's terms, the condition of cars, the scores and the offers. -/
namespace Paddock

theorem toNat_ofNat_of_le {n : Nat} {b : UInt8} (h : n ≤ b.toNat) : (UInt8.ofNat n).toNat = n :=
  UInt8.toNat_ofNat_of_lt' (Nat.lt_of_le_of_lt h b.toNat_lt)

def Garage.condition? (g : Garage) (c : CarId) : Option UInt8 := (g.cars.cars.get? c).map Car.condition

theorem Garage.condition?_of_get? {g : Garage} {c : CarId} {car : Car} (h : g.cars.cars.get? c = some car) :
    g.condition? c = some car.condition := by
  rw [condition?, h, Option.map_some]

namespace Ledger

variable {hash : Hasher} {s s' : Ledger} {c : CarId} {p : PartId} {l : Listing} {operation : Operation}
  {reply : Reply} {car : Car} {part : Part}

/-! ### Terms -/

/-- What the operator sets, and who the operator is. -/
structure Terms where
  operator : AccountId
  mintPrice : Amount
  repairPrice : Amount
  feeBps : UInt16
  baseUri : String
  workshopAuthority : Option AccountId
  leaderboardAuthority : Option AccountId
deriving DecidableEq

def terms (s : Ledger) : Terms where
  operator := s.operator
  mintPrice := s.mintPrice
  repairPrice := s.workshop.repairPrice
  feeBps := s.market.feeBps
  baseUri := s.baseUri
  workshopAuthority := s.workshop.authority
  leaderboardAuthority := s.leaderboard.authority

theorem terms_step (h : Step hash s operation reply s') :
    s'.terms = s.terms ∨ operation.caller? = some s.operator := by
  have hmarket {m : Market} (hfee : m.feeBps = s.market.feeBps) (garage : Garage) (bank : Bank) (journal : Journal) :
      ({ s with market := m, garage, bank, journal } : Ledger).terms = s.terms := by
    simp only [terms, hfee]
  cases h with
  | withdraw hcaller | mintPart hcaller | setMintPrice hcaller | setRepairPrice hcaller | setFee hcaller
  | setAuthority hcaller | transferOperator hcaller | setBaseUri hcaller => exact .inr (congrArg some hcaller)
  | list h =>
    obtain ⟨l, -, rfl⟩ := Market.exists_of_list h
    exact .inl rfl
  | cancel h =>
    obtain ⟨l, -, -, -, rfl⟩ := Market.cancel_eq_ok_iff.mp h
    exact .inl rfl
  | transferCar => exact .inl (hmarket (Market.feeBps_invalidate _ _) _ _ _)
  | buy _ _ _ h =>
    obtain ⟨-, rfl⟩ := Market.settleInPlace_ok_iff.mp h
    exact .inl (hmarket (Market.feeBps_markSettled _ _) _ _ _)
  | race h =>
    obtain ⟨-, -, -, rfl⟩ := Leaderboard.record_eq_ok_iff.mp h
    exact .inl rfl
  | _ => exact .inl rfl

/-! ### The condition of cars -/

/-- What an operation does to the condition of a car, if there is such a car. -/
inductive ConditionStep (s : Ledger) (c : CarId) (after : Option UInt8) : Operation → Prop
  | kept {operation : Operation} (h : after = s.garage.condition? c) : ConditionStep s c after operation
  | minted {operation : Operation} (hnew : s.garage.condition? c = none)
      (h : after = some s.garage.cars.maxCondition) : ConditionStep s c after operation
  | worn {car : Car} {caller : AccountId} {amount condition : UInt8} (hcar : s.garage.cars.cars.get? c = some car)
      (hmay : caller = s.operator ∨ s.workshop.authority = some caller)
      (hcondition : condition.toNat = car.condition.toNat - amount.toNat) (h : after = some condition) :
      ConditionStep s c after (.wear caller c amount)
  | repaired {car : Car} {payment : Amount} {condition : UInt8} (hcar : s.garage.cars.cars.get? c = some car)
      (hprice : ¬ payment < s.workshop.repairPrice)
      (hcondition : condition.toNat =
        min (car.condition.toNat + s.workshop.repairAmount.toNat) s.garage.cars.maxCondition.toNat)
      (h : after = some condition) : ConditionStep s c after (.repair car.owner c payment)

theorem condition_step (hs : s.Coherent) (h : Step hash s operation reply s') :
    s'.garage.cars.maxCondition = s.garage.cars.maxCondition ∧
      ∀ c, ConditionStep s c (s'.garage.condition? c) operation := by
  have hg := hs.sound
  cases h with
  | mintCar _ _ h =>
    obtain ⟨arranged, -, hnext, -, -, rfl⟩ := Garage.mintInPlace_ok_iff.mp h
    obtain ⟨hroom, rfl⟩ := CarRegistry.nextId_eq_ok_iff.mp hnext
    have hfree : s.garage.condition? ⟨s.garage.cars.lastId + 1⟩ = none := by
      rw [Garage.condition?, hg.cars_fresh _ (by rw [toNat_next hroom]; omega)]
      rfl
    refine ⟨rfl, fun c => ?_⟩
    by_cases hc : ⟨s.garage.cars.lastId + 1⟩ = c
    · subst hc
      exact .minted hfree (congrArg (Option.map Car.condition) (Table.get?_insert_self _ _ _))
    · exact .kept (congrArg (Option.map Car.condition) (Table.get?_insert_ne _ _ hc))
  | equip h =>
    obtain ⟨t, found, part, -, hfound, -, -, -, -, -, -, rfl⟩ := Garage.equipInPlace_ok_iff.mp h
    exact ⟨rfl, fun c => .kept (CarRegistry.map_put Car.condition hfound _ (by rfl) c)⟩
  | unequip h =>
    obtain ⟨t, found, part, hfound, -, -, -, -, rfl⟩ := Garage.unequipInPlace_ok_iff.mp h
    exact ⟨rfl, fun c => .kept (CarRegistry.map_put Car.condition hfound _ (by rfl) c)⟩
  | replace h =>
    obtain ⟨t, found, oldPart, newPart, hfound, -, -, -, -, -, -, -, -, rfl⟩ := Garage.replaceInPlace_ok_iff.mp h
    exact ⟨rfl, fun c => .kept (CarRegistry.map_put Car.condition hfound _ (by rfl) c)⟩
  | @transferCar caller moved target _ _ _ h =>
    obtain ⟨found, hfound, -, rfl⟩ := CarRegistry.transferFrom_eq_ok_iff.mp h
    refine ⟨congrArg Garage.Fixtures.maxCondition (Garage.fixtures_handed_car _ _ _ _), fun c => .kept ?_⟩
    exact CarRegistry.map_handed Car.condition hfound target rfl c
  | approveCar h =>
    obtain ⟨_, -, -, rfl⟩ := CarRegistry.approve_eq_ok_iff.mp h
    exact ⟨rfl, fun c => .kept rfl⟩
  | @buy buyer sold payment _ _ _ _ hplan _ _ h =>
    obtain ⟨found, hfound, hdelivered, -⟩ := Market.delivered_of_settle hg hplan h
    obtain ⟨l, _, fee, -, -, -, -, -, -, -, -, rfl⟩ := Market.plan_eq_ok_iff.mp hplan
    refine ⟨congrArg Garage.Fixtures.maxCondition hdelivered.fixtures, fun c => .kept ?_⟩
    by_cases hc : sold = c
    · subst hc
      exact (Garage.condition?_of_get? hdelivered.car_eq).trans (Garage.condition?_of_get? hfound).symm
    · exact congrArg (Option.map Car.condition) (hdelivered.others c hc)
  | @repair caller worn payment _ _ _ _ _ _ h =>
    obtain ⟨found, condition, hfound, rfl, hprice, rfl, -, rfl⟩ := Workshop.repair_eq_ok_iff.mp h
    refine ⟨rfl, fun c => ?_⟩
    by_cases hc : worn = c
    · subst hc
      have hcondition := toNat_ofNat_of_le (Nat.min_le_right
        (found.condition.toNat + s.workshop.repairAmount.toNat) s.garage.cars.maxCondition.toNat)
      exact .repaired hfound hprice hcondition (congrArg (Option.map Car.condition) (Table.get?_insert_self _ _ _))
    · exact .kept (congrArg (Option.map Car.condition) (Table.get?_insert_ne _ _ hc))
  | @wear caller worn amount _ _ h =>
    obtain ⟨hmay, h⟩ := Workshop.wear_eq_ok_iff.mp h
    obtain ⟨found, hfound, rfl, rfl⟩ := CarRegistry.wear_eq_ok_iff.mp h
    refine ⟨rfl, fun c => ?_⟩
    by_cases hc : worn = c
    · subst hc
      have hcondition := toNat_ofNat_of_le (Nat.sub_le found.condition.toNat amount.toNat)
      exact .worn hfound hmay hcondition (congrArg (Option.map Car.condition) (Table.get?_insert_self _ _ _))
    · exact .kept (congrArg (Option.map Car.condition) (Table.get?_insert_ne _ _ hc))
  | @setAuthority _ role _ _ => cases role <;> exact ⟨rfl, fun c => .kept rfl⟩
  | _ => exact ⟨rfl, fun c => .kept rfl⟩

/-- No car is in better condition than there is. -/
def Maintained (s : Ledger) : Prop :=
  ∀ c condition, s.garage.condition? c = some condition → condition.toNat ≤ s.garage.cars.maxCondition.toNat

theorem maintained_step (hs : s.Coherent) (hkept : s.Maintained) (h : Step hash s operation reply s') :
    s'.Maintained := by
  obtain ⟨hmax, hcars⟩ := condition_step hs h
  intro c condition hc
  rw [hmax]
  cases hcars c with
  | kept hsame => exact hkept c condition (hsame.symm.trans hc)
  | minted _ hafter =>
    cases hc.symm.trans hafter
    exact Nat.le_refl _
  | @worn car _ amount _ hcar _ hcondition hafter =>
    cases hc.symm.trans hafter
    have hbefore := hkept c car.condition (Garage.condition?_of_get? hcar)
    omega
  | repaired _ _ hcondition hafter =>
    cases hc.symm.trans hafter
    omega

theorem maintained_reachable (h : Reachable hash s) : s.Maintained := by
  refine invariant_reachable (P := Maintained) (fun hstart => ?_) (fun hs hkept hstep => ?_) h
  · obtain ⟨-, -, rfl⟩ := genesis_eq_ok_iff.mp hstart
    intro c condition hc
    cases hc
  · exact maintained_step hs hkept hstep

/-! ### New parts -/

theorem part_minted_step (hg : s.garage.Sound) (h : Step hash s operation reply s')
    (hfree : s.garage.parts.parts.get? p = none) (hpart : s'.garage.parts.parts.get? p = some part) :
    (∃ owner spec, operation = .mintPart s.operator owner spec) ∨ ∃ c, part.equippedTo = some c := by
  -- An operation that mints nothing has nothing to say about a part that was not there.
  have hnone {f : Part → AccountId} (h : (s'.garage.parts.parts.get? p).map f = (s.garage.parts.parts.get? p).map f) :
      False := by
    rw [hpart, hfree] at h
    cases h
  cases h with
  | mintPart hcaller h => exact .inl ⟨_, _, by rw [hcaller]⟩
  | mintCar _ _ h =>
    obtain ⟨arranged, -, -, -, -, rfl⟩ := Garage.mintInPlace_ok_iff.mp h
    have hminted := (Garage.get?_minted _ _ arranged p).symm.trans hpart
    split at hminted
    · cases hminted
      exact .inr ⟨_, rfl⟩
    · split at hminted
      · cases hminted
        exact .inr ⟨_, rfl⟩
      · split at hminted
        · cases hminted
          exact .inr ⟨_, rfl⟩
        · cases hfree.symm.trans hminted
  | equip h =>
    obtain ⟨_, _, _, -, -, -, hfitted, -, -, -, -, rfl⟩ := Garage.equipInPlace_ok_iff.mp h
    exact (hnone (Garage.partOwner?_attached hfitted p)).elim
  | unequip h =>
    obtain ⟨_, _, _, -, -, -, htaken, -, rfl⟩ := Garage.unequipInPlace_ok_iff.mp h
    exact (hnone (Garage.partOwner?_detached htaken p)).elim
  | replace h =>
    obtain ⟨_, _, _, _, -, -, -, hold, hmark, hnew, -, hloose, -, rfl⟩ := Garage.replaceInPlace_ok_iff.mp h
    have hne := Garage.ne_of_marked hold hmark hnew hloose
    exact (hnone (Garage.partOwner?_replaced hold hnew hne p)).elim
  | transferPart _ h =>
    obtain ⟨_, hmoved, -, -, rfl⟩ := PartRegistry.transferFrom_eq_ok_iff.mp h
    have hafter := (Garage.get?_handed_part hmoved _ p).symm.trans hpart
    split at hafter
    · next hp =>
      subst hp
      cases hfree.symm.trans hmoved
    · cases hfree.symm.trans hafter
  | approvePart h =>
    obtain ⟨_, -, -, rfl⟩ := PartRegistry.approve_eq_ok_iff.mp h
    cases hfree.symm.trans hpart
  | buy hplan _ _ h =>
    obtain ⟨_, -, hdelivered, -⟩ := Market.delivered_of_settle hg hplan h
    have hafter := hdelivered.parts p
    rw [hfree, Option.map_none] at hafter
    cases hpart.symm.trans hafter
  | @setAuthority _ role _ _ => cases role <;> cases hfree.symm.trans hpart
  | _ => cases hfree.symm.trans hpart

/-! ### Scores -/

theorem scores_step (h : Step hash s operation reply s') : s'.leaderboard.best = s.leaderboard.best ∨
    ∃ caller c score, operation = .race caller c score ∧
      (caller = s.operator ∨ s.leaderboard.authority = some caller) := by
  cases h with
  | race h =>
    obtain ⟨hmay, -, -, -⟩ := Leaderboard.record_eq_ok_iff.mp h
    exact .inr ⟨_, _, _, rfl, Leaderboard.isAuthorized_iff.mp hmay⟩
  | @setAuthority _ role _ _ => cases role <;> exact .inl rfl
  | _ => exact .inl rfl

/-! ### Offers -/

/-- How an active offer comes to an end. -/
inductive OfferEnded (s : Ledger) (c : CarId) (l : Listing) : Operation → Prop
  | cancelled : OfferEnded s c l (.cancel l.seller c)
  | transferred {caller target : AccountId} (hmay : s.garage.cars.isAuthorized c caller = .ok true) :
      OfferEnded s c l (.transferCar caller c target)
  | sold {buyer : AccountId} {payment : Amount} : OfferEnded s c l (.buy buyer c payment)

theorem offer_ended_step (h : Step hash s operation reply s') (hl : s.market.listing? c = some l)
    (hactive : l.state = .active) : s'.market.listing? c = some l ∨ OfferEnded s c l operation := by
  cases h with
  | @list _ listed _ _ _ h =>
    obtain ⟨-, _, _, -, -, hfree, -, rfl⟩ := Market.list_eq_ok_iff.mp h
    have hne : listed ≠ c := by
      rintro rfl
      exact Market.state_ne_active hfree hl hactive
    exact .inl ((Market.listing?_insert _ _ _ _).trans ((if_neg hne).trans hl))
  | @cancel caller cancelled _ h =>
    obtain ⟨l', hl', -, rfl, rfl⟩ := Market.cancel_eq_ok_iff.mp h
    by_cases hc : cancelled = c
    · subst hc
      cases hl.symm.trans hl'
      exact .inr .cancelled
    · exact .inl ((Market.listing?_insert _ _ _ _).trans ((if_neg hc).trans hl))
  | @transferCar caller moved _ _ _ _ h =>
    obtain ⟨car, hcar, hmay, -⟩ := CarRegistry.transferFrom_eq_ok_iff.mp h
    by_cases hc : moved = c
    · subst hc
      exact .inr (.transferred (CarRegistry.isAuthorized_eq_ok_iff.mpr ⟨car, hcar, hmay⟩))
    · exact .inl ((Market.listing?_invalidate_ne _ hc).trans hl)
  | @buy _ sold _ _ _ _ _ hplan _ _ h =>
    obtain ⟨-, rfl⟩ := Market.settleInPlace_ok_iff.mp h
    obtain ⟨l', _, _, hl', -, -, -, -, -, -, -, rfl⟩ := Market.plan_eq_ok_iff.mp hplan
    by_cases hc : sold = c
    · subst hc
      exact .inr .sold
    · exact .inl ((Market.listing?_markSettled _ hl' c).trans ((if_neg hc).trans hl))
  | setFee _ h =>
    obtain ⟨-, rfl⟩ := Market.setFee_eq_ok_iff.mp h
    exact .inl hl
  | @setAuthority _ role _ _ => cases role <;> exact .inl hl
  | _ => exact .inl hl

theorem offer_opened_step (h : Step hash s operation reply s') (hl : s'.market.listing? c = some l)
    (hactive : l.state = .active) : s.market.listing? c = some l ∨
      ∃ price included, operation = .list l.seller c price included ∧ s.garage.carOwner? c = some l.seller := by
  obtain ⟨event, -, hoffer⟩ := offer_step h
  cases hoffer c with
  | kept _ hsame => exact .inl (hsame.symm.trans hl)
  | opened hoperation _ _ hl' _ =>
    cases hl.symm.trans hl'
    subst hoperation
    cases h with
    | list h =>
      obtain ⟨-, car, parts, hcar, howner, -⟩ := Market.list_eq_ok_iff.mp h
      exact .inr ⟨_, _, rfl, (congrArg (Option.map Car.owner) hcar).trans (congrArg some howner)⟩
  | sold _ _ _ hended => exact absurd hactive (Market.state_ne_active hended hl)
  | withdrawn _ hended => exact absurd hactive (Market.state_ne_active hended hl)

/-! ### Who may do what -/

/-- Of all that is up to somebody, an operation changes only what is up to its caller. -/
structure Privileged (s : Ledger) (operation : Operation) (s' : Ledger) : Prop where
  terms : s'.terms ≠ s.terms → operation.caller? = some s.operator
  loose : ∀ p part, s.garage.parts.parts.get? p = none → s'.garage.parts.parts.get? p = some part →
    part.equippedTo = none → ∃ owner spec, operation = .mintPart s.operator owner spec
  worn : ∀ c before after, s.garage.condition? c = some before → s'.garage.condition? c = some after →
    after < before → ∃ caller amount, operation = .wear caller c amount ∧
      (caller = s.operator ∨ s.workshop.authority = some caller)
  restored : ∀ c before after, s.garage.condition? c = some before → s'.garage.condition? c = some after →
    before < after → ∃ owner payment, operation = .repair owner c payment ∧
      s.garage.carOwner? c = some owner ∧ ¬ payment < s.workshop.repairPrice
  scores : s'.leaderboard.best ≠ s.leaderboard.best → ∃ caller c score, operation = .race caller c score ∧
    (caller = s.operator ∨ s.leaderboard.authority = some caller)
  offered : ∀ c l, s'.market.listing? c = some l → l.state = .active → s.market.listing? c ≠ some l →
    ∃ price included, operation = .list l.seller c price included ∧ s.garage.carOwner? c = some l.seller
  ended : ∀ c l, s.market.listing? c = some l → l.state = .active → s'.market.listing? c ≠ some l →
    OfferEnded s c l operation

theorem privileged_refl (s : Ledger) (operation : Operation) : Privileged s operation s where
  terms h := absurd rfl h
  loose p part hfree hpart := by
    rw [hfree] at hpart
    cases hpart
  worn c before after hbefore hafter hless := by
    cases hbefore.symm.trans hafter
    exact absurd hless (UInt8.lt_irrefl _)
  restored c before after hbefore hafter hless := by
    cases hbefore.symm.trans hafter
    exact absurd hless (UInt8.lt_irrefl _)
  scores h := absurd rfl h
  offered c l hl _ hnew := absurd hl hnew
  ended c l hl _ hgone := absurd hl hgone

theorem worn_of_step (hs : s.Coherent) (hkept : s.Maintained) (h : Step hash s operation reply s')
    {before after : UInt8} (hbefore : s.garage.condition? c = some before)
    (hafter : s'.garage.condition? c = some after) (hless : after < before) :
    ∃ caller amount, operation = .wear caller c amount ∧
      (caller = s.operator ∨ s.workshop.authority = some caller) := by
  have hmax := hkept c before hbefore
  rw [UInt8.lt_iff_toNat_lt] at hless
  cases (condition_step hs h).2 c with
  | kept hsame =>
    cases hbefore.symm.trans (hsame.symm.trans hafter)
    omega
  | minted hnew => cases hbefore.symm.trans hnew
  | worn _ hmay => exact ⟨_, _, rfl, hmay⟩
  | @repaired car _ _ hcar _ hcondition hsame =>
    obtain rfl : car.condition = before := Option.some.inj ((Garage.condition?_of_get? hcar).symm.trans hbefore)
    cases hafter.symm.trans hsame
    omega

theorem restored_of_step (hs : s.Coherent) (h : Step hash s operation reply s') {before after : UInt8}
    (hbefore : s.garage.condition? c = some before) (hafter : s'.garage.condition? c = some after)
    (hless : before < after) : ∃ owner payment, operation = .repair owner c payment ∧
      s.garage.carOwner? c = some owner ∧ ¬ payment < s.workshop.repairPrice := by
  rw [UInt8.lt_iff_toNat_lt] at hless
  cases (condition_step hs h).2 c with
  | kept hsame =>
    cases hbefore.symm.trans (hsame.symm.trans hafter)
    omega
  | minted hnew => cases hbefore.symm.trans hnew
  | @worn car _ _ _ hcar _ hcondition hsame =>
    obtain rfl : car.condition = before := Option.some.inj ((Garage.condition?_of_get? hcar).symm.trans hbefore)
    cases hafter.symm.trans hsame
    omega
  | repaired hcar hprice => exact ⟨_, _, rfl, congrArg (Option.map Car.owner) hcar, hprice⟩

theorem privileged_step (hs : s.Coherent) (hkept : s.Maintained) (h : Step hash s operation reply s') :
    Privileged s operation s' where
  terms hchanged := (terms_step h).resolve_left hchanged
  loose p part hfree hpart hloose := by
    rcases part_minted_step hs.sound h hfree hpart with hminted | ⟨c, hmark⟩
    · exact hminted
    · rw [hloose] at hmark
      cases hmark
  worn _ _ _ hbefore hafter hless := worn_of_step hs hkept h hbefore hafter hless
  restored _ _ _ hbefore hafter hless := restored_of_step hs h hbefore hafter hless
  scores hchanged := (scores_step h).resolve_left hchanged
  offered _ _ hl hactive hnew := (offer_opened_step h hl hactive).resolve_left hnew
  ended _ _ hl hactive hgone := (offer_ended_step h hl hactive).resolve_left hgone

/-- The operator decides on the terms and mints loose parts, the workshop wears cars out, owners have them
repaired at the price, the leaderboard is told by its own, and an offer is its seller's until it is sold. -/
theorem privileges_separated (hs : Reachable hash s) (operation : Operation) :
    Privileged s operation (s.execute hash operation).2 := by
  have hcoherent := coherent_reachable hs
  rcases execute_cases hcoherent operation with hsame | ⟨reply, hstep⟩
  · rw [hsame]
    exact privileged_refl s operation
  · exact privileged_step hcoherent (maintained_reachable hs) hstep

namespace Fair

/-- The operator has the car worn out a little. -/
def wearing : Operation := .wear (account 9) ⟨1⟩ 5

end Fair

theorem privileges_separated_fair : Reachable Fair.hasher Fair.opened ∧
    Fair.opened.garage.condition? ⟨1⟩ = some 100 ∧
    (Fair.opened.execute Fair.hasher Fair.wearing).2.garage.condition? ⟨1⟩ = some 95 ∧
    ∃ caller amount, Fair.wearing = .wear caller ⟨1⟩ amount ∧
      (caller = Fair.opened.operator ∨ Fair.opened.workshop.authority = some caller) := by
  have hbefore : Fair.opened.garage.condition? ⟨1⟩ = some 100 := by decide +kernel
  have hafter : (Fair.opened.execute Fair.hasher Fair.wearing).2.garage.condition? ⟨1⟩ = some 95 := by decide +kernel
  have hprivileged := privileges_separated Fair.reachable_opened Fair.wearing
  exact ⟨Fair.reachable_opened, hbefore, hafter, hprivileged.worn ⟨1⟩ 100 95 hbefore hafter (by decide)⟩

end Ledger

end Paddock
