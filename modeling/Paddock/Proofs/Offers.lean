import Paddock.Market.Basic
import Paddock.Proofs.Slots

/-! What every offer on the books has behind it, and which changes leave it so. -/
namespace Paddock

variable {g g' : Garage} {c d : CarId} {p q old new : PartId} {t u : PartType} {car : Car}
  {part oldPart newPart : Part} {caller target : AccountId}

namespace Garage

def partOwner? (g : Garage) (p : PartId) : Option AccountId := (g.parts.parts.get? p).map Part.owner

/-- A car stays where it is and its owner's. What is in its slots afterwards belongs to that owner,
or was there before and still belongs to whom it belonged to. -/
def Keeps (g g' : Garage) (c : CarId) : Prop :=
  ∀ car, g.cars.cars.get? c = some car →
    ∃ car', g'.cars.cars.get? c = some car' ∧ car'.owner = car.owner ∧
      ∀ t p, car'.slots.get t = some p → g'.partOwner? p = some car.owner ∨
        (car.slots.get t = some p ∧ g'.partOwner? p = g.partOwner? p)

theorem Keeps.trans {g'' : Garage} (h : g.Keeps g' c) (h' : g'.Keeps g'' c) : g.Keeps g'' c := by
  intro car hcar
  obtain ⟨car', hcar', howner, hslots⟩ := h car hcar
  obtain ⟨car'', hcar'', howner', hslots'⟩ := h' car' hcar'
  refine ⟨car'', hcar'', howner'.trans howner, fun t p hp => ?_⟩
  rcases hslots' t p hp with hmine | ⟨hp', hsame⟩
  · exact .inl (by rw [hmine, howner])
  · rcases hslots t p hp' with hmine | ⟨hp, hsame'⟩
    · exact .inl (hsame.trans hmine)
    · exact .inr ⟨hp, hsame.trans hsame'⟩

/-- A change elsewhere. -/
theorem keeps_of_same (hcar : g'.cars.cars.get? c = g.cars.cars.get? c)
    (howner : ∀ t p, g.slotAt c t = some p → g'.partOwner? p = g.partOwner? p) : g.Keeps g' c := by
  intro car h
  refine ⟨car, hcar.trans h, rfl, fun t p hp => .inr ⟨hp, howner t p ?_⟩⟩
  rw [slotAt_of_get? h, hp]

theorem Keeps.refl (g : Garage) (c : CarId) : g.Keeps g c := keeps_of_same rfl fun _ _ _ => rfl

theorem partOwner?_mark (h : g.parts.parts.get? p = some part) (mark : Option CarId) (q : PartId) :
    ((g.parts.mark p part mark).parts.get? q).map Part.owner = g.partOwner? q := by
  rw [get?_mark, partOwner?]
  split
  · next hq => subst hq; simp [h]
  · rfl

theorem keeps_attached (hcar : g.cars.cars.get? c = some car)
    (hpart : g.parts.parts.get? p = some part) (howner : part.owner = car.owner) :
    g.Keeps (g.attached c car t p part) d := by
  by_cases hd : c = d
  · subst hd
    intro other hother
    obtain rfl := Option.some.inj (hcar.symm.trans hother)
    refine ⟨{ car with slots := car.slots.set t (some p) }, Table.get?_insert_self _ _ _, rfl, ?_⟩
    intro u q hq
    rw [PerType.get_set] at hq
    split at hq
    · cases hq
      left
      exact (partOwner?_mark hpart _ p).trans (by simp [partOwner?, hpart, howner])
    · exact .inr ⟨hq, partOwner?_mark hpart _ q⟩
  · exact keeps_of_same (Table.get?_insert_ne _ _ hd) fun _ q _ => partOwner?_mark hpart _ q

theorem keeps_detached (hcar : g.cars.cars.get? c = some car)
    (hpart : g.parts.parts.get? p = some part) : g.Keeps (g.detached c car t p part) d := by
  by_cases hd : c = d
  · subst hd
    intro other hother
    obtain rfl := Option.some.inj (hcar.symm.trans hother)
    refine ⟨{ car with slots := car.slots.set t none }, Table.get?_insert_self _ _ _, rfl, ?_⟩
    intro u q hq
    rw [PerType.get_set] at hq
    split at hq
    · cases hq
    · exact .inr ⟨hq, partOwner?_mark hpart _ q⟩
  · exact keeps_of_same (Table.get?_insert_ne _ _ hd) fun _ q _ => partOwner?_mark hpart _ q

theorem keeps_replaced (hcar : g.cars.cars.get? c = some car)
    (hold : g.parts.parts.get? old = some oldPart) (hnew : g.parts.parts.get? new = some newPart)
    (hne : old ≠ new) (howner : newPart.owner = car.owner) :
    g.Keeps (g.replaced c car t old oldPart new newPart) d := by
  rw [replaced_eq]
  refine (keeps_detached hcar hold).trans (keeps_attached ?_ ?_ howner)
  · exact Table.get?_insert_self _ _ _
  · exact (get?_mark _ _ _ _ _).trans ((if_neg hne).trans hnew)

theorem Sound.keeps_minted (hg : g.Sound) (hroom : g.parts.lastId.toNat + 3 < UInt64.size)
    (hcar : g.cars.nextId = .ok c) (owner : AccountId) (image : String) (specs : PerType PartSpec) :
    g.Keeps (g.minted owner image c specs) d := by
  intro other hother
  have hsame := hg.get?_car_minted hcar hother owner image specs
  refine keeps_of_same (hsame.trans hother.symm) (fun t p hp => ?_) other hother
  obtain ⟨part, hpart, -⟩ := hg.part_of_slot hp
  rw [partOwner?, partOwner?, hg.get?_part_minted hroom hpart, hpart]

theorem Sound.keeps_addLoose (hg : g.Sound) (hroom : g.parts.lastId.toNat + 1 < UInt64.size)
    (owner : AccountId) (spec : PartSpec) :
    g.Keeps { g with parts := g.parts.addPart owner spec none } d := by
  refine keeps_of_same rfl fun t p hp => ?_
  obtain ⟨part, hpart, -⟩ := hg.part_of_slot hp
  rw [partOwner?, partOwner?, hg.get?_part_addLoose hroom hpart, hpart]

/-- A loose part is in no slot. -/
theorem Sound.keeps_handPart (hg : g.Sound) (h : g.parts.parts.get? p = some part)
    (hloose : part.equippedTo = none) (target : AccountId) :
    g.Keeps { g with parts := g.parts.handed p part target } d := by
  refine keeps_of_same rfl fun t q hq => ?_
  obtain ⟨other, hother, -, hmark⟩ := hg.part_of_slot hq
  simp only [partOwner?, get?_handed_part h]
  rw [if_neg]
  rintro rfl
  obtain rfl := Option.some.inj (h.symm.trans hother)
  rw [hloose] at hmark
  cases hmark

theorem keeps_handCar (h : g.cars.cars.get? c = some car) (target : AccountId) (hd : c ≠ d) :
    g.Keeps { g with cars := g.cars.handed c car target } d :=
  keeps_of_same (by rw [get?_handed_car h, if_neg hd]) fun _ _ _ => rfl

theorem keeps_withCondition (h : g.cars.cars.get? c = some car) (condition : UInt8) :
    g.Keeps { g with cars := g.cars.withCondition c car condition } d := by
  by_cases hd : c = d
  · subst hd
    intro other hother
    obtain rfl := Option.some.inj (h.symm.trans hother)
    exact ⟨_, Table.get?_insert_self _ _ _, rfl, fun _ _ hq => .inr ⟨hq, rfl⟩⟩
  · exact keeps_of_same (Table.get?_insert_ne _ _ hd) fun _ _ _ => rfl

end Garage

/-- An offer is filed under its car, which exists, and names a part for each included slot. While it
is active, the car is the seller's, and so is each named part that is still in its slot. -/
structure Listing.Backed (l : Listing) (c : CarId) (g : Garage) : Prop where
  filed : l.car = c
  priced : l.price ≠ 0
  bundle : ∀ t, (l.parts.get t).isSome = l.included.get t
  exists_car : ∃ car, g.cars.cars.get? c = some car
  owned : l.state = .active → ∀ car, g.cars.cars.get? c = some car → car.owner = l.seller ∧
    ∀ t p, l.parts.get t = some p → car.slots.get t = some p → g.partOwner? p = some l.seller

theorem Listing.Backed.keeps {l : Listing} (hl : l.Backed c g) (h : g.Keeps g' c) : l.Backed c g' := by
  obtain ⟨car, hcar⟩ := hl.exists_car
  obtain ⟨car', hcar', howner, hslots⟩ := h car hcar
  refine ⟨hl.filed, hl.priced, hl.bundle, ⟨car', hcar'⟩, fun hactive other hother => ?_⟩
  obtain rfl := Option.some.inj (hcar'.symm.trans hother)
  obtain ⟨hseller, hparts⟩ := hl.owned hactive car hcar
  refine ⟨howner.trans hseller, fun t p hp hslot => ?_⟩
  rcases hslots t p hslot with hmine | ⟨hslot', hsame⟩
  · rw [hmine, hseller]
  · rw [hsame]
    exact hparts t p hp hslot'

/-- An offer that is over needs its car to be there and no more. -/
theorem Listing.Backed.close {l : Listing} (hl : l.Backed c g) {state : ListingState}
    (hstate : state ≠ .active) (hcar : ∃ car, g'.cars.cars.get? c = some car) :
    ({ l with state } : Listing).Backed c g' :=
  ⟨hl.filed, hl.priced, hl.bundle, hcar, fun h => absurd h hstate⟩

namespace Market

variable {m m' : Market} {l : Listing} {price : Amount} {included : PerType Bool}

def Backed (m : Market) (g : Garage) : Prop :=
  ∀ c l, m.listings.get? c = some l → l.Backed c g

theorem Backed.keeps (hm : m.Backed g) (h : ∀ c, g.Keeps g' c) : m.Backed g' :=
  fun c l hl => (hm c l hl).keeps (h c)

/-- The offer of one car changes, and nothing happens to the others. -/
theorem Backed.insert (hm : m.Backed g) (hl : l.Backed c g') (h : ∀ d, c ≠ d → g.Keeps g' d) :
    ({ m with listings := m.listings.insert c l } : Market).Backed g' := by
  intro d other hother
  change (m.listings.insert c l).get? d = some other at hother
  rw [Table.get?_insert] at hother
  split at hother
  · next hd =>
    subst hd
    cases hother
    exact hl
  · next hd => exact (hm d other hother).keeps (h d hd)

theorem bundlePart_eq_ok {held : Option PartId}
    (h : bundlePart g caller c car included t = .ok held) :
    held.isSome = included.get t ∧
      ∀ p, held = some p → car.slots.get t = some p ∧ g.partOwner? p = some caller := by
  unfold bundlePart at h
  cases hincluded : included.get t with
  | false =>
    simp only [hincluded, Bool.not_false, if_true, pure_eq_ok_iff] at h
    subst h
    refine ⟨rfl, fun p hp => ?_⟩
    cases hp
  | true =>
    simp only [hincluded, Bool.not_true, Bool.false_eq_true, if_false] at h
    cases hslot : car.slots.get t with
    | none =>
      simp only [hslot] at h
      cases h
    | some p =>
      simp only [hslot, bind_eq_ok_iff] at h
      obtain ⟨owner, howner, h⟩ := h
      obtain ⟨part, hpart, rfl⟩ := PartRegistry.ownerOf_eq_ok_iff.mp (mapError_eq_ok_iff.mp howner)
      split at h
      · next hmine =>
        cases h
        refine ⟨rfl, fun q hq => ?_⟩
        cases hq
        exact ⟨rfl, by simp [Garage.partOwner?, hpart, hmine]⟩
      · cases h

/-- Making an offer looks at the car and at each included slot. -/
theorem checkList_eq_ok_iff :
    m.checkList g caller c price included = .ok l ↔
      price ≠ 0 ∧ ∃ car parts, g.cars.cars.get? c = some car ∧ car.owner = caller ∧
        m.isListed c = false ∧ (∀ t, bundlePart g caller c car included t = .ok (parts.get t)) ∧
        ⟨c, caller, price, included, parts, .active⟩ = l := by
  simp only [checkList, throw_bind, guard_eq_ok_iff, bind_eq_ok_iff, pure_eq_ok_iff, ne_eq,
    Decidable.not_not, Bool.not_eq_true]
  refine and_congr_right fun _ => ?_
  constructor
  · rintro ⟨car, hcar, howner, hlisted, engine, hengine, transmission, htransmission, wheels, hwheels, rfl⟩
    have hcar := CarRegistry.get_eq_ok_iff.mp (mapError_eq_ok_iff.mp hcar)
    refine ⟨car, ⟨engine, transmission, wheels⟩, hcar, howner, hlisted, fun t => ?_, rfl⟩
    cases t
    · exact hengine
    · exact htransmission
    · exact hwheels
  · rintro ⟨car, parts, hcar, howner, hlisted, hparts, rfl⟩
    exact ⟨car, mapError_eq_ok_iff.mpr (CarRegistry.get_eq_ok_iff.mpr hcar), howner, hlisted, _,
      hparts .engine, _, hparts .transmission, _, hparts .wheels, rfl⟩

theorem list_eq_ok_iff :
    m.list g caller c price included = .ok m' ↔
      price ≠ 0 ∧ ∃ car parts, g.cars.cars.get? c = some car ∧ car.owner = caller ∧
        m.isListed c = false ∧ (∀ t, bundlePart g caller c car included t = .ok (parts.get t)) ∧
        { m with listings := m.listings.insert c ⟨c, caller, price, included, parts, .active⟩ } = m' := by
  refine Change.outcome_state_iff.trans ?_
  simp only [listInPlace, Change.check_bind_ok_iff, Change.modify_ok_iff, checkList_eq_ok_iff]
  constructor
  · rintro ⟨_, ⟨hprice, car, parts, hcar, howner, hlisted, hparts, rfl⟩, rfl⟩
    exact ⟨hprice, car, parts, hcar, howner, hlisted, hparts, rfl⟩
  · rintro ⟨hprice, car, parts, hcar, howner, hlisted, hparts, rfl⟩
    exact ⟨_, ⟨hprice, car, parts, hcar, howner, hlisted, hparts, rfl⟩, rfl⟩

/-- A new offer starts with all of this. -/
theorem exists_of_list (h : m.list g caller c price included = .ok m') :
    ∃ l, l.Backed c g ∧ { m with listings := m.listings.insert c l } = m' := by
  obtain ⟨hprice, car, parts, hcar, howner, -, hparts, rfl⟩ := list_eq_ok_iff.mp h
  have hbundle (t) := (bundlePart_eq_ok (hparts t)).1
  refine ⟨_, ⟨rfl, hprice, hbundle, ⟨car, hcar⟩, fun _ other hother => ?_⟩, rfl⟩
  obtain rfl := Option.some.inj (hcar.symm.trans hother)
  exact ⟨howner, fun t p hp _ => ((bundlePart_eq_ok (hparts t)).2 p hp).2⟩

theorem checkCancel_eq_ok_iff :
    m.checkCancel caller c = .ok l ↔ m.listing? c = some l ∧ l.state = .active ∧ l.seller = caller := by
  unfold checkCancel
  cases m.listing? c with
  | none => simp [throw_ne_ok]
  | some found =>
    have hactive : ¬ (!found.isActive) = true ↔ found.state = .active := by simp [Listing.isActive]
    simp only [throw_bind, guard_eq_ok_iff, pure_eq_ok_iff, hactive, ne_eq, Decidable.not_not, Option.some.injEq]
    constructor
    · rintro ⟨hstate, hseller, rfl⟩
      exact ⟨rfl, hstate, hseller⟩
    · rintro ⟨rfl, hstate, hseller⟩
      exact ⟨hstate, hseller, rfl⟩

theorem cancel_eq_ok_iff :
    m.cancel caller c = .ok m' ↔ ∃ l, m.listing? c = some l ∧ l.state = .active ∧
      l.seller = caller ∧ m.setState c l .cancelled = m' := by
  refine Change.outcome_state_iff.trans ?_
  simp only [cancelInPlace, Change.check_bind_ok_iff, Change.modify_ok_iff, checkCancel_eq_ok_iff, and_assoc]

theorem setFee_eq_ok_iff {bps : UInt16} :
    m.setFee bps = .ok m' ↔ bps ≤ maxFeeBps ∧ { m with feeBps := bps } = m' := by
  refine Change.outcome_state_iff.trans ?_
  unfold setFeeInPlace
  split
  · next h => simp [UInt16.not_le.mpr h]
  · next h => simp [UInt16.not_lt.mp h]

theorem clean_list (g : Garage) (caller : AccountId) (c : CarId) (price : Amount) (included : PerType Bool)
    (m : Market) : (listInPlace g caller c price included).Clean m :=
  Change.clean_check_bind fun _ _ => (Change.succeeds_modify _).clean

theorem clean_cancel (caller : AccountId) (c : CarId) (m : Market) : (cancelInPlace caller c).Clean m :=
  Change.clean_check_bind fun _ _ => (Change.succeeds_modify _).clean

theorem clean_setFee (bps : UInt16) (m : Market) : (setFeeInPlace bps).Clean m := by
  unfold setFeeInPlace
  split
  · exact Change.clean_throw _
  · exact (Change.succeeds_modify _).clean

theorem Backed.list (hm : m.Backed g) (h : m.list g caller c price included = .ok m') :
    m'.Backed g := by
  obtain ⟨l, hl, rfl⟩ := exists_of_list h
  exact hm.insert hl fun d _ => .refl g d

theorem Backed.cancel (hm : m.Backed g) (h : m.cancel caller c = .ok m') : m'.Backed g := by
  obtain ⟨l, hl, -, -, rfl⟩ := cancel_eq_ok_iff.mp h
  exact hm.insert ((hm c l hl).close nofun (hm c l hl).exists_car) fun d _ => .refl g d

theorem Backed.setFee {bps : UInt16} (hm : m.Backed g) (h : m.setFee bps = .ok m') : m'.Backed g := by
  obtain ⟨-, rfl⟩ := setFee_eq_ok_iff.mp h
  exact hm

/-- Whatever happens to the owner of a car, no offer of it stays active. -/
theorem Backed.invalidate (hm : m.Backed g) (hcar : ∃ car, g'.cars.cars.get? c = some car)
    (h : ∀ d, c ≠ d → g.Keeps g' d) : (m.invalidate c).Backed g' := by
  unfold Market.invalidate
  cases hl : m.listing? c with
  | none =>
    intro d l hd
    refine (hm d l hd).keeps (h d ?_)
    rintro rfl
    rw [Market.listing?, hd] at hl
    cases hl
  | some l =>
    by_cases hactive : l.isActive = true
    · simp only [hactive, if_true]
      exact hm.insert ((hm c l hl).close nofun hcar) h
    · simp only [hactive]
      intro d other hd
      by_cases hcd : c = d
      · subst hcd
        obtain rfl := Option.some.inj (hl.symm.trans hd)
        have hstate : l.state ≠ .active := by simpa [Listing.isActive] using hactive
        exact (hm c l hd).close hstate hcar
      · exact (hm d other hd).keeps (h d hcd)

theorem feeBps_invalidate (m : Market) (c : CarId) : (m.invalidate c).feeBps = m.feeBps := by
  unfold invalidate
  split
  · split <;> rfl
  · rfl

theorem feeBps_markSettled (m : Market) (plan : PurchasePlan) : (m.markSettled plan).feeBps = m.feeBps := by
  unfold markSettled
  split <;> rfl

theorem markSettled_eq {plan : PurchasePlan} (hl : m.listing? plan.car = some l) :
    m.markSettled plan = m.setState plan.car l (.settled plan.buyer) := by
  simp only [Market.markSettled, hl]

theorem Backed.markSettled {plan : PurchasePlan} (hm : m.Backed g) (hl : m.listing? plan.car = some l)
    (hcar : ∃ car, g'.cars.cars.get? plan.car = some car)
    (h : ∀ d, plan.car ≠ d → g.Keeps g' d) : (m.markSettled plan).Backed g' := by
  rw [markSettled_eq hl]
  exact hm.insert ((hm plan.car l hl).close nofun hcar) h

end Market

end Paddock
