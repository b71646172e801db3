import Paddock.Proofs.Runs

/-! Nothing changes hands, and no car its parts, unless the owner allowed it. -/
namespace Paddock

namespace Approvals

variable {κ : Type} [Key κ] {a : Approvals κ} {owner account : AccountId} {id : κ}

/-- Who may move a token that `owner` holds. -/
def Entitles (a : Approvals κ) (owner : AccountId) (id : κ) (account : AccountId) : Prop :=
  account = owner ∨ a.approved id = some account ∨ a.isOperator owner account = true

theorem isAuthorized_iff : a.isAuthorized owner id account = true ↔ a.Entitles owner id account := by
  simp only [isAuthorized, Entitles, Bool.or_eq_true, beq_iff_eq, or_assoc, eq_comm (a := owner)]

end Approvals

namespace Garage

variable {g g' : Garage} {c d : CarId} {p q : PartId} {t : PartType} {car : Car} {part : Part}

def carOwner? (g : Garage) (c : CarId) : Option AccountId := (g.cars.cars.get? c).map Car.owner

theorem partOwner?_attached (hpart : g.parts.parts.get? p = some part) (q : PartId) :
    (g.attached c car t p part).partOwner? q = g.partOwner? q :=
  partOwner?_mark hpart _ q

theorem partOwner?_detached (hpart : g.parts.parts.get? p = some part) (q : PartId) :
    (g.detached c car t p part).partOwner? q = g.partOwner? q :=
  partOwner?_mark hpart _ q

theorem partOwner?_replaced {old new : PartId} {oldPart newPart : Part}
    (hold : g.parts.parts.get? old = some oldPart) (hnew : g.parts.parts.get? new = some newPart)
    (hne : old ≠ new) (q : PartId) :
    (g.replaced c car t old oldPart new newPart).partOwner? q = g.partOwner? q := by
  rw [replaced_eq, partOwner?_attached, partOwner?_detached hold]
  exact (get?_mark _ _ _ _ _).trans ((if_neg hne).trans hnew)

end Garage

namespace Ledger

variable {hash : Hasher} {s s' : Ledger} {c d : CarId} {p : PartId} {a : AccountId} {found new : Car}
  {operation : Operation} {reply : Reply}

/-- How a car comes to belong to someone else. -/
inductive CarMoved (s : Ledger) (c : CarId) (source target : AccountId) : Operation → Prop
  | transfer {caller : AccountId} (hmay : s.garage.cars.approvals.Entitles source c caller) :
      CarMoved s c source target (.transferCar caller c target)
  | sale {l : Listing} {payment : Amount} (hl : s.market.listing? c = some l) (hactive : l.state = .active)
      (hseller : l.seller = source)
      (hmay : s.garage.cars.approvals.Entitles source c s.market.account) :
      CarMoved s c source target (.buy target c payment)

/-- How a part comes to belong to someone else. Only a sale moves one that is on a car. -/
inductive PartMoved (s : Ledger) (p : PartId) (source target : AccountId) : Operation → Prop
  | transfer {caller : AccountId} {part : Part} (hpart : s.garage.parts.parts.get? p = some part)
      (hloose : part.equippedTo = none) (hmay : s.garage.parts.approvals.Entitles source p caller) :
      PartMoved s p source target (.transferPart caller p target)
  | sale {c : CarId} {l : Listing} {t : PartType} {payment : Amount} (hl : s.market.listing? c = some l)
      (hactive : l.state = .active) (hseller : l.seller = source) (hbundled : l.parts.get t = some p)
      (hmay : s.garage.parts.approvals.Entitles source p s.market.account) :
      PartMoved s p source target (.buy target c payment)

/-- How the slots of a car come to hold something else. -/
inductive Refitted (owner : AccountId) (c : CarId) : Operation → Prop
  | equip {part : PartId} {slot : UInt64} : Refitted owner c (.equip owner c part slot)
  | unequip {part : PartId} : Refitted owner c (.unequip owner c part)
  | replace {old new : PartId} : Refitted owner c (.replace owner c old new)
  | sale {buyer : AccountId} {payment : Amount} : Refitted owner c (.buy buyer c payment)

theorem refitted_or_same {g : Garage} (hfound : g.cars.cars.get? d = some found)
    (ha : g.carOwner? c = some a) (h : Refitted found.owner d operation) :
    ((g.cars.put d new).cars.get? c).map Car.slots = g.slots? c ∨ Refitted a c operation := by
  by_cases hd : d = c
  · subst hd
    simp only [Garage.carOwner?, hfound, Option.map_some, Option.some.injEq] at ha
    rw [← ha]
    exact .inr h
  · exact .inl (congrArg (Option.map Car.slots) (Table.get?_insert_ne _ _ hd))

theorem car_step (hs : s.Coherent) (h : Step hash s operation reply s')
    (ha : s.garage.carOwner? c = some a) :
    ∃ b, s'.garage.carOwner? c = some b ∧ (b ≠ a → CarMoved s c a b operation) ∧
      (s'.garage.slots? c ≠ s.garage.slots? c → Refitted a c operation) := by
  have hg := hs.sound
  -- Only a transfer and a sale give a car another owner.
  have hkept {g' : Garage}
      (howner : (g'.cars.cars.get? c).map Car.owner = (s.garage.cars.cars.get? c).map Car.owner)
      (hslots : (g'.cars.cars.get? c).map Car.slots = s.garage.slots? c ∨ Refitted a c operation) :
      ∃ b, g'.carOwner? c = some b ∧ (b ≠ a → CarMoved s c a b operation) ∧
        (g'.slots? c ≠ s.garage.slots? c → Refitted a c operation) :=
    ⟨a, howner.trans ha, fun h => absurd rfl h, fun h => hslots.resolve_left h⟩
  have hsame {g' : Garage} (h : g'.cars.cars.get? c = s.garage.cars.cars.get? c) :
      ∃ b, g'.carOwner? c = some b ∧ (b ≠ a → CarMoved s c a b operation) ∧
        (g'.slots? c ≠ s.garage.slots? c → Refitted a c operation) :=
    hkept (congrArg (Option.map Car.owner) h) (.inl (congrArg (Option.map Car.slots) h))
  obtain ⟨car, hcar, rfl⟩ := Option.map_eq_some_iff.mp ha
  cases h with
  | @mintCar caller request _ _ _ _ _ _ h =>
    obtain ⟨arranged, -, hnext, -, -, rfl⟩ := Garage.mintInPlace_ok_iff.mp h
    exact hsame ((hg.get?_car_minted hnext hcar caller request.image arranged).trans hcar.symm)
  | equip h =>
    obtain ⟨t, found, part, -, hfound, rfl, -, -, -, -, -, rfl⟩ := Garage.equipInPlace_ok_iff.mp h
    exact hkept (CarRegistry.map_put Car.owner hfound _ (by rfl) c) (refitted_or_same hfound ha .equip)
  | unequip h =>
    obtain ⟨t, found, part, hfound, rfl, -, -, -, rfl⟩ := Garage.unequipInPlace_ok_iff.mp h
    exact hkept (CarRegistry.map_put Car.owner hfound _ (by rfl) c) (refitted_or_same hfound ha .unequip)
  | replace h =>
    obtain ⟨t, found, oldPart, newPart, hfound, rfl, -, -, -, -, -, -, -, rfl⟩ :=
      Garage.replaceInPlace_ok_iff.mp h
    exact hkept (CarRegistry.map_put Car.owner hfound _ (by rfl) c) (refitted_or_same hfound ha .replace)
  | @transferCar caller moved target _ _ _ h =>
    obtain ⟨found, hfound, hmay, rfl⟩ := CarRegistry.transferFrom_eq_ok_iff.mp h
    have hcars := Garage.get?_handed_car hfound target c
    by_cases hc : moved = c
    · subst hc
      obtain rfl := Option.some.inj (hcar.symm.trans hfound)
      rw [if_pos rfl] at hcars
      refine ⟨target, congrArg (Option.map Car.owner) hcars, fun _ => ?_, fun h => absurd ?_ h⟩
      · exact .transfer (Approvals.isAuthorized_iff.mp hmay)
      · exact (congrArg (Option.map Car.slots) hcars).trans (congrArg (Option.map Car.slots) hcar).symm
    · rw [if_neg hc] at hcars
      exact hsame hcars
  | approveCar h =>
    obtain ⟨_, -, -, rfl⟩ := CarRegistry.approve_eq_ok_iff.mp h
    exact hsame rfl
  | @buy buyer sold payment _ _ _ _ hplan _ _ h =>
    obtain ⟨_, -, hdelivered, -⟩ := Market.delivered_of_settle hg hplan h
    obtain ⟨l, found, fee, hl, hactive, -, hfound, hseller, hmay, -, -, rfl⟩ := Market.plan_eq_ok_iff.mp hplan
    by_cases hc : sold = c
    · subst hc
      obtain rfl := Option.some.inj (hcar.symm.trans hfound)
      refine ⟨buyer, congrArg (Option.map Car.owner) hdelivered.car_eq, fun _ => ?_, fun _ => .sale⟩
      exact .sale hl hactive hseller.symm (Approvals.isAuthorized_iff.mp hmay)
    · exact hsame (hdelivered.others c hc)
  | repair _ _ h =>
    obtain ⟨found, condition, hfound, rfl⟩ := Workshop.exists_of_repair h
    exact hkept (CarRegistry.map_put Car.owner hfound _ (by rfl) c)
      (.inl (CarRegistry.map_put Car.slots hfound _ (by rfl) c))
  | wear h =>
    obtain ⟨found, condition, hfound, rfl⟩ := Workshop.exists_of_wear h
    exact hkept (CarRegistry.map_put Car.owner hfound _ (by rfl) c)
      (.inl (CarRegistry.map_put Car.slots hfound _ (by rfl) c))
  | @setAuthority _ role _ _ => cases role <;> exact hsame rfl
  | _ => exact hsame rfl

theorem part_step (hs : s.Coherent) (h : Step hash s operation reply s')
    (ha : s.garage.partOwner? p = some a) :
    ∃ b, s'.garage.partOwner? p = some b ∧ (b ≠ a → PartMoved s p a b operation) := by
  have hg := hs.sound
  have hkept {g' : Garage} (howner : g'.partOwner? p = s.garage.partOwner? p) :
      ∃ b, g'.partOwner? p = some b ∧ (b ≠ a → PartMoved s p a b operation) :=
    ⟨a, howner.trans ha, fun h => absurd rfl h⟩
  obtain ⟨part, hpart, rfl⟩ := Option.map_eq_some_iff.mp ha
  cases h with
  | mintCar _ _ h =>
    obtain ⟨arranged, -, -, -, hroom, rfl⟩ := Garage.mintInPlace_ok_iff.mp h
    exact hkept (congrArg (Option.map Part.owner) ((hg.get?_part_minted hroom hpart _ _ _).trans hpart.symm))
  | mintPart _ h =>
    obtain ⟨-, hroom, -, rfl⟩ := PartRegistry.mint_eq_ok_iff.mp h
    exact hkept (congrArg (Option.map Part.owner) ((hg.get?_part_addLoose hroom hpart _ _).trans hpart.symm))
  | equip h =>
    obtain ⟨t, car, fitted, -, -, -, hfitted, -, -, -, -, rfl⟩ := Garage.equipInPlace_ok_iff.mp h
    exact hkept (Garage.partOwner?_attached hfitted p)
  | unequip h =>
    obtain ⟨t, car, taken, -, -, -, htaken, -, rfl⟩ := Garage.unequipInPlace_ok_iff.mp h
    exact hkept (Garage.partOwner?_detached htaken p)
  | replace h =>
    obtain ⟨t, car, oldPart, newPart, -, -, -, hold, hmark, hnew, -, hloose, -, rfl⟩ :=
      Garage.replaceInPlace_ok_iff.mp h
    exact hkept (Garage.partOwner?_replaced hold hnew (Garage.ne_of_marked hold hmark hnew hloose) p)
  | @transferPart caller moved target _ _ _ h =>
    obtain ⟨found, hfound, hmay, hloose, rfl⟩ := PartRegistry.transferFrom_eq_ok_iff.mp h
    have hparts := Garage.get?_handed_part hfound target p
    by_cases hp : moved = p
    · subst hp
      obtain rfl := Option.some.inj (hpart.symm.trans hfound)
      rw [if_pos rfl] at hparts
      refine ⟨target, congrArg (Option.map Part.owner) hparts, fun _ => ?_⟩
      exact .transfer hpart hloose (Approvals.isAuthorized_iff.mp hmay)
    · rw [if_neg hp] at hparts
      exact hkept (congrArg (Option.map Part.owner) hparts)
  | approvePart h =>
    obtain ⟨_, -, -, rfl⟩ := PartRegistry.approve_eq_ok_iff.mp h
    exact hkept rfl
  | @buy buyer sold payment _ _ _ _ hplan _ _ h =>
    obtain ⟨_, -, hdelivered, -⟩ := Market.delivered_of_settle hg hplan h
    obtain ⟨l, _, fee, hl, hactive, -, -, -, -, hready, -, rfl⟩ := Market.plan_eq_ok_iff.mp hplan
    have hparts := congrArg (Option.map Part.owner) (hdelivered.parts p)
    rw [hpart, Option.map_map, Option.map_some] at hparts
    by_cases hp : p ∈ l.bundled.map Prod.snd
    · obtain ⟨t, ht⟩ := Listing.mem_bundledParts.mp hp
      obtain ⟨-, found, hfound, hseller, hmay⟩ := hready (t, p) (Listing.mem_bundled.mpr ht)
      obtain rfl := Option.some.inj (hpart.symm.trans hfound)
      refine ⟨buyer, hparts.trans (congrArg some (if_pos hp)), fun _ => ?_⟩
      exact .sale hl hactive hseller.symm ht (Approvals.isAuthorized_iff.mp hmay)
    · exact hkept ((hparts.trans (congrArg some (if_neg hp))).trans ha.symm)
  | @setAuthority _ role _ _ => cases role <;> exact hkept rfl
  | _ => exact hkept rfl

/-- No car or part is lost. Whoever moves one was entitled to by the owner, and the slots of a car are
changed by its owner or in its sale. -/
theorem movement_authorized (hs : Reachable hash s) (operation : Operation) :
    (∀ c a, s.garage.carOwner? c = some a →
      ∃ b, (s.execute hash operation).2.garage.carOwner? c = some b ∧
        (b ≠ a → CarMoved s c a b operation) ∧
        ((s.execute hash operation).2.garage.slots? c ≠ s.garage.slots? c → Refitted a c operation)) ∧
      ∀ p a, s.garage.partOwner? p = some a →
        ∃ b, (s.execute hash operation).2.garage.partOwner? p = some b ∧
          (b ≠ a → PartMoved s p a b operation) := by
  have hcoherent := coherent_reachable hs
  rcases execute_cases hcoherent operation with hsame | ⟨reply, hstep⟩
  · rw [hsame]
    constructor
    · intro c a ha
      exact ⟨a, ha, fun h => absurd rfl h, fun h => absurd rfl h⟩
    · intro p a ha
      exact ⟨a, ha, fun h => absurd rfl h⟩
  · exact ⟨fun c a ha => car_step hcoherent hstep ha, fun p a ha => part_step hcoherent hstep ha⟩

theorem movement_authorized_fair : Reachable Fair.hasher Fair.opened ∧
    CarMoved Fair.opened ⟨1⟩ (Fair.account 1) (Fair.account 2) Fair.purchase ∧
    Refitted (Fair.account 1) ⟨1⟩ Fair.purchase ∧
    PartMoved Fair.opened ⟨2⟩ (Fair.account 1) (Fair.account 2) Fair.purchase := by
  obtain ⟨hcars, hparts⟩ := movement_authorized Fair.reachable_opened Fair.purchase
  obtain ⟨b, hb, hmoved, hrefitted⟩ := hcars ⟨1⟩ (Fair.account 1) (by decide +kernel)
  obtain ⟨b', hb', hmoved'⟩ := hparts ⟨2⟩ (Fair.account 1) (by decide +kernel)
  obtain rfl : b = Fair.account 2 := Option.some.inj (hb.symm.trans (by decide +kernel))
  obtain rfl : b' = Fair.account 2 := Option.some.inj (hb'.symm.trans (by decide +kernel))
  exact ⟨Fair.reachable_opened, hmoved (by decide), hrefitted (by decide +kernel), hmoved' (by decide)⟩

end Ledger

end Paddock
