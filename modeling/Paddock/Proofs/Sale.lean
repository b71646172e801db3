import Paddock.Proofs.Delivery

/-! What a purchase looks at, that its plan can then be carried out, and what this delivers. -/
namespace Paddock

variable {g g' : Garage} {c d : CarId} {p : PartId} {t : PartType} {car : Car} {part : Part}
  {ps : List PartId}

/-! ### Offers and their parts -/

namespace Listing

variable {l : Listing}

theorem mem_bundled : (t, p) ∈ l.bundled ↔ l.parts.get t = some p := by
  simp only [bundled, List.mem_filterMap, Option.map_eq_some_iff, Prod.mk.injEq]
  constructor
  · rintro ⟨_, -, _, h, rfl, rfl⟩
    exact h
  · intro h
    exact ⟨t, t.mem_all, p, h, rfl, rfl⟩

theorem mem_bundledParts : p ∈ l.bundled.map Prod.snd ↔ ∃ t, l.parts.get t = some p := by
  simp [mem_bundled]

theorem bundledParts_eq : l.bundled.map Prod.snd = PartType.all.filterMap l.parts.get := by
  simp only [bundled, List.map_filterMap, Option.map_map, Function.comp_def, Option.map_id']

end Listing

namespace Market

variable {m m' : Market} {l : Listing} {price payment fee : Amount} {buyer : AccountId}
  {plan : PurchasePlan} {included : PerType Bool} {x : PartType × PartId} {xs : List (PartType × PartId)}

theorem partsLift_eq_ok_iff {α : Type} {a : α} {e : Except PartError α} :
    (liftM e : Except MarketError α) = .ok a ↔ e = .ok a :=
  mapError_eq_ok_iff

theorem carsLift_eq_ok_iff {α : Type} {a : α} {e : Except CarError α} :
    (liftM e : Except MarketError α) = .ok a ↔ e = .ok a :=
  mapError_eq_ok_iff

/-! ### Approvals -/

/-- The market may move the part that is in a slot. -/
def SlotApproved (m : Market) (g : Garage) (car : Car) (t : PartType) : Prop :=
  ∃ p part, car.slots.get t = some p ∧ g.parts.parts.get? p = some part ∧
    g.parts.approvals.isAuthorized part.owner p m.account = true

theorem partApproved_iff :
    (∃ answer, m.partApproved g car included t = .ok answer ∧ answer.getD true = true) ↔
      (included.get t = true → m.SlotApproved g car t) := by
  unfold partApproved SlotApproved
  cases hincluded : included.get t with
  | false => simp [pure_eq_ok_iff]
  | true =>
    cases hslot : car.slots.get t with
    | none => simp [pure_eq_ok_iff]
    | some p =>
      simp only [Bool.not_true, Bool.false_eq_true, if_false, bind_eq_ok_iff, pure_eq_ok_iff,
        partsLift_eq_ok_iff, PartRegistry.isAuthorized_eq_ok_iff]
      constructor
      · rintro ⟨answer, ⟨b, ⟨part, hpart, hb⟩, rfl⟩, h⟩ -
        exact ⟨p, part, rfl, hpart, hb.trans h⟩
      · intro h
        obtain ⟨q, part, hq, hpart, hb⟩ := h trivial
        cases hq
        exact ⟨_, ⟨_, ⟨part, hpart, rfl⟩, rfl⟩, hb⟩

theorem approved_iff :
    (∃ status, m.approvalStatus g c included = .ok status ∧ status.all = true) ↔
      ∃ car, g.cars.cars.get? c = some car ∧
        g.cars.approvals.isAuthorized car.owner c m.account = true ∧
        ∀ t, included.get t = true → m.SlotApproved g car t := by
  simp only [← partApproved_iff, approvalStatus, bind_eq_ok_iff, pure_eq_ok_iff, carsLift_eq_ok_iff,
    CarRegistry.get_eq_ok_iff, CarRegistry.isAuthorized_eq_ok_iff]
  constructor
  · rintro ⟨status, ⟨car, hcar, approved, ⟨car', hcar', hmay⟩, e, he, tr, htr, w, hw, rfl⟩, hall⟩
    obtain rfl := Option.some.inj (hcar.symm.trans hcar')
    simp only [PerType.toList, List.all_cons, List.all_nil, Bool.and_true, Bool.and_eq_true] at hall
    obtain ⟨happroved, hall, hall', hall''⟩ := hall
    refine ⟨car, hcar, hmay.trans happroved, fun t => ?_⟩
    cases t
    · exact ⟨e, he, hall⟩
    · exact ⟨tr, htr, hall'⟩
    · exact ⟨w, hw, hall''⟩
  · rintro ⟨car, hcar, hmay, hparts⟩
    obtain ⟨e, he, hall⟩ := hparts .engine
    obtain ⟨tr, htr, hall'⟩ := hparts .transmission
    obtain ⟨w, hw, hall''⟩ := hparts .wheels
    refine ⟨_, ⟨car, hcar, true, ⟨car, hcar, hmay⟩, e, he, tr, htr, w, hw, rfl⟩, ?_⟩
    simp [PerType.toList, hall, hall', hall'']

/-! ### Planning -/

/-- A part that was offered is still in its slot and the seller's, and the market may move it. -/
def Ready (m : Market) (g : Garage) (seller : AccountId) (car : Car) (x : PartType × PartId) : Prop :=
  car.slots.get x.1 = some x.2 ∧ ∃ part, g.parts.parts.get? x.2 = some part ∧ part.owner = seller ∧
    g.parts.approvals.isAuthorized part.owner x.2 m.account = true

theorem checkBundled_eq_ok_iff :
    m.checkBundled g l c car x = .ok p ↔ x.2 = p ∧ m.Ready g l.seller car x := by
  obtain ⟨t, q⟩ := x
  unfold checkBundled Ready
  dsimp only
  cases hslot : car.slots.get t with
  | none => simp [throw_bind, throw_ne_ok]
  | some current =>
    simp only [throw_bind, guard_eq_ok_iff, bind_eq_ok_iff, partsLift_eq_ok_iff, ne_eq,
      Decidable.not_not, PartRegistry.ownerOf_eq_ok_iff, PartRegistry.isAuthorized_eq_ok_iff]
    constructor
    · rintro ⟨rfl, _, ⟨part, hpart, rfl⟩, howner, authorized, ⟨part', hpart', hmay⟩, h⟩
      obtain rfl := Option.some.inj (hpart.symm.trans hpart')
      split at h
      · next hauthorized =>
        cases h
        exact ⟨rfl, rfl, part, hpart, howner, hmay.trans hauthorized⟩
      · cases h
    · rintro ⟨rfl, hslot, part, hpart, howner, hmay⟩
      cases hslot
      exact ⟨rfl, _, ⟨part, hpart, rfl⟩, howner, true, ⟨part, hpart, hmay⟩, rfl⟩

theorem mapM_checkBundled_eq_ok_iff :
    xs.mapM (m.checkBundled g l c car) = .ok ps ↔
      xs.map Prod.snd = ps ∧ ∀ x ∈ xs, m.Ready g l.seller car x := by
  induction xs generalizing ps with
  | nil => simp [pure_eq_ok_iff]
  | cons x xs ih =>
    simp only [List.mapM_cons, bind_eq_ok_iff, checkBundled_eq_ok_iff, ih, pure_eq_ok_iff, List.map_cons,
      List.forall_mem_cons]
    constructor
    · rintro ⟨_, ⟨rfl, hx⟩, _, ⟨rfl, hxs⟩, rfl⟩
      exact ⟨rfl, hx, hxs⟩
    · rintro ⟨rfl, hx, hxs⟩
      exact ⟨_, ⟨rfl, hx⟩, _, ⟨rfl, hxs⟩, rfl⟩

theorem feeFor_eq_ok_iff :
    m.feeFor price = .ok fee ↔ price.toNat * m.feeBps.toNat < amountBound ∧
      fee.toNat = price.toNat * m.feeBps.toNat / maxFeeBps.toNat := by
  unfold feeFor
  split
  · next h =>
    simp only [Except.ok.injEq, h, true_and]
    exact ⟨fun h => h ▸ rfl, fun h => Amount.ext h.symm⟩
  · next h => simp [h]

/-- The plan of a purchase under an offer. -/
def planFor (l : Listing) (car : Car) (c : CarId) (buyer : AccountId) (payment fee : Amount) :
    PurchasePlan where
  car := c
  seller := l.seller
  buyer := buyer
  price := l.price
  fee := fee
  proceeds := l.price - fee
  refund := payment - l.price
  bundled := l.bundled.map Prod.snd
  released := releasedSlots l car

theorem plan_eq_ok_iff :
    m.plan g buyer c payment = .ok plan ↔
      ∃ l car fee, m.listing? c = some l ∧ l.state = .active ∧ l.price.toNat ≤ payment.toNat ∧
        g.cars.cars.get? c = some car ∧ car.owner = l.seller ∧
        g.cars.approvals.isAuthorized car.owner c m.account = true ∧
        (∀ x ∈ l.bundled, m.Ready g l.seller car x) ∧ m.feeFor l.price = .ok fee ∧
        planFor l car c buyer payment fee = plan := by
  have hpay {l : Listing} : ¬ payment < l.price ↔ l.price.toNat ≤ payment.toNat := Nat.not_lt
  have hactive {l : Listing} : ¬ (!l.isActive) = true ↔ l.state = .active := by simp [Listing.isActive]
  unfold Market.plan
  cases hl : m.listing? c with
  | none => simp [throw_ne_ok]
  | some l =>
    simp only [throw_bind, guard_eq_ok_iff, bind_eq_ok_iff, carsLift_eq_ok_iff, pure_eq_ok_iff, ne_eq,
      Decidable.not_not, hpay, hactive, CarRegistry.get_eq_ok_iff, CarRegistry.isAuthorized_eq_ok_iff,
      mapM_checkBundled_eq_ok_iff]
    constructor
    · rintro ⟨hstate, hprice, car, hcar, howner, authorized, ⟨car', hcar', hmay⟩, hauthorized, _, ⟨rfl, hready⟩,
        fee, hfee, rfl⟩
      obtain rfl := Option.some.inj (hcar.symm.trans hcar')
      exact ⟨l, car, fee, rfl, hstate, hprice, hcar, howner, hmay.trans (by simpa using hauthorized), hready, hfee,
        rfl⟩
    · rintro ⟨_, car, fee, hl', hstate, hprice, hcar, howner, hmay, hready, hfee, rfl⟩
      cases hl'
      exact ⟨hstate, hprice, car, hcar, howner, true, ⟨car, hcar, hmay⟩, by simp, _, ⟨rfl, hready⟩, fee, hfee, rfl⟩

/-! ### Settling -/

theorem settleInPlace_ok_iff {u : Unit} :
    settleInPlace plan (m, g) = .ok u (m', g') ↔
      handOver plan g = .ok () g' ∧ m.markSettled plan = m' := by
  simp only [settleInPlace, Change.bind_ok_iff, Change.within_ok_iff, Change.modify_ok_iff]
  constructor
  · rintro ⟨_, _, ⟨_, h, rfl⟩, heq⟩
    obtain ⟨rfl, rfl⟩ := Prod.mk.inj heq
    exact ⟨h, rfl⟩
  · rintro ⟨h, rfl⟩
    exact ⟨(), _, ⟨_, h, rfl⟩, rfl⟩

/-- Different slots hold different parts. -/
theorem nodup_bundled (hg : g.Sound) (hcar : g.cars.cars.get? c = some car)
    (hready : ∀ x ∈ l.bundled, m.Ready g l.seller car x) : (l.bundled.map Prod.snd).Nodup := by
  have hslot {t p} (h : l.parts.get t = some p) : g.slotAt c t = some p :=
    (Garage.slotAt_of_get? hcar).trans (hready (t, p) (Listing.mem_bundled.mpr h)).1
  rw [Listing.bundledParts_eq, List.Nodup, List.pairwise_filterMap]
  refine List.Pairwise.imp ?_ (show PartType.all.Nodup by decide)
  rintro t u hne p hp q hq rfl
  exact hne (hg.slot_unique (hslot hp) (hslot hq)).2

/-- A plan made against a sound garage can be carried out there. -/
theorem exists_delivered_of_plan (hg : g.Sound) (h : m.plan g buyer c payment = .ok plan) :
    ∃ car g', g.cars.cars.get? c = some car ∧ handOver plan g = .ok () g' ∧
      g.Delivered plan car g' := by
  obtain ⟨l, car, fee, -, -, -, hcar, howner, -, hready, -, rfl⟩ := plan_eq_ok_iff.mp h
  obtain ⟨g', hrun, hdelivered⟩ := Garage.exists_delivered hg
    (planFor l car c buyer payment fee) hcar howner (nodup_bundled hg hcar hready) (by
      intro p hp
      obtain ⟨x, hx, rfl⟩ := List.mem_map.mp hp
      obtain ⟨-, part, hpart, hseller, -⟩ := hready x hx
      simp [Garage.partOwner?, hpart, hseller, planFor])
  exact ⟨car, g', hcar, hrun, hdelivered⟩

/-- A settlement of such a plan delivers what was planned. -/
theorem delivered_of_settle {u : Unit} (hg : g.Sound) (hplan : m.plan g buyer c payment = .ok plan)
    (h : settleInPlace plan (m, g) = .ok u (m', g')) :
    ∃ car, g.cars.cars.get? c = some car ∧ g.Delivered plan car g' ∧ m.markSettled plan = m' := by
  obtain ⟨car, delivered, hcar, hrun, hdelivered⟩ := exists_delivered_of_plan hg hplan
  obtain ⟨hrun', hm⟩ := settleInPlace_ok_iff.mp h
  cases hrun.symm.trans hrun'
  exact ⟨car, hcar, hdelivered, hm⟩

/-- What is sold sat in the car that is sold, so other cars are left alone. -/
theorem keeps_of_plan (hg : g.Sound) (h : m.plan g buyer c payment = .ok plan)
    (hdelivered : g.Delivered plan car g') (hd : c ≠ d) : g.Keeps g' d := by
  obtain ⟨l, sold, fee, -, -, -, hcar, -, -, hready, -, rfl⟩ := plan_eq_ok_iff.mp h
  refine Garage.keeps_of_same (hdelivered.others d hd) fun t p hp => ?_
  obtain ⟨part, hpart, -⟩ := hg.part_of_slot hp
  have hother : p ∉ l.bundled.map Prod.snd := by
    intro hbundled
    obtain ⟨x, hx, rfl⟩ := List.mem_map.mp hbundled
    exact hd (hg.slot_unique ((Garage.slotAt_of_get? hcar).trans (hready x hx).1) hp).1
  simp [Garage.partOwner?, hdelivered.parts, hpart, planFor, hother]

/-! ### What a plan delivers -/

theorem mem_releasedSlots :
    t ∈ releasedSlots l car ↔ l.included.get t = false ∧ (car.slots.get t).isSome = true := by
  simp [releasedSlots, PartType.mem_all]

theorem mem_releasedParts :
    p ∈ (releasedSlots l car).filterMap car.slots.get ↔
      ∃ t, l.included.get t = false ∧ car.slots.get t = some p := by
  simp only [List.mem_filterMap, mem_releasedSlots]
  constructor
  · rintro ⟨t, ⟨hincluded, -⟩, hslot⟩
    exact ⟨t, hincluded, hslot⟩
  · rintro ⟨t, hincluded, hslot⟩
    exact ⟨t, ⟨hincluded, by simp [hslot]⟩, hslot⟩

/-- With the unsold parts gone, the car holds what was offered. -/
theorem emptied_releasedSlots (hbundle : ∀ t, (l.parts.get t).isSome = l.included.get t)
    (hready : ∀ x ∈ l.bundled, m.Ready g l.seller car x) :
    Garage.emptied car.slots (releasedSlots l car) = l.parts := by
  refine PerType.ext_get fun t => ?_
  have hincluded := hbundle t
  rw [Garage.get_emptied]
  cases hpart : l.parts.get t with
  | none =>
    rw [hpart] at hincluded
    split
    · rfl
    · next hkept => simpa [mem_releasedSlots, ← hincluded] using hkept
  | some p =>
    rw [hpart] at hincluded
    rw [if_neg (by simp [mem_releasedSlots, ← hincluded])]
    exact (hready (t, p) (Listing.mem_bundled.mpr hpart)).1

section Delivered

variable (hg : g.Sound) (hcar : g.cars.cars.get? c = some car)
  (hbundle : ∀ t, (l.parts.get t).isSome = l.included.get t)
  (hready : ∀ x ∈ l.bundled, m.Ready g l.seller car x)
  (hdelivered : g.Delivered (planFor l car c buyer payment fee) car g')
include hg hcar hbundle hready hdelivered

theorem part_sold_of_delivered (h : l.parts.get t = some p) :
    ∃ part, g.parts.parts.get? p = some part ∧ part.equippedTo = some c ∧
      g'.parts.parts.get? p = some { part with owner := buyer } := by
  have hslot := (hready (t, p) (Listing.mem_bundled.mpr h)).1
  have hat : g.slotAt c t = some p := (Garage.slotAt_of_get? hcar).trans hslot
  obtain ⟨part, hpart, -, hmark⟩ := hg.part_of_slot hat
  have hsold : p ∈ l.bundled.map Prod.snd := Listing.mem_bundledParts.mpr ⟨t, h⟩
  have hkept : p ∉ (releasedSlots l car).filterMap car.slots.get := by
    rw [mem_releasedParts]
    rintro ⟨u, hu, hslot'⟩
    obtain ⟨-, rfl⟩ := hg.slot_unique hat ((Garage.slotAt_of_get? hcar).trans hslot')
    simp [← hbundle, h] at hu
  refine ⟨part, hpart, hmark, ?_⟩
  simp only [hdelivered.parts, hpart, Option.map_some, planFor, hsold, hkept, if_true, if_false]

theorem part_released_of_delivered (hincluded : l.included.get t = false)
    (hslot : car.slots.get t = some p) :
    ∃ part, g.parts.parts.get? p = some part ∧
      g'.parts.parts.get? p = some { part with equippedTo := none } := by
  have hat : g.slotAt c t = some p := (Garage.slotAt_of_get? hcar).trans hslot
  obtain ⟨part, hpart, -⟩ := hg.part_of_slot hat
  have hreleased : p ∈ (releasedSlots l car).filterMap car.slots.get :=
    mem_releasedParts.mpr ⟨t, hincluded, hslot⟩
  have hunsold : p ∉ l.bundled.map Prod.snd := by
    rw [Listing.mem_bundledParts]
    rintro ⟨u, hu⟩
    have hslot' := (hready (u, p) (Listing.mem_bundled.mpr hu)).1
    obtain ⟨-, rfl⟩ := hg.slot_unique hat ((Garage.slotAt_of_get? hcar).trans hslot')
    simp [← hbundle, hu] at hincluded
  refine ⟨part, hpart, ?_⟩
  simp only [hdelivered.parts, hpart, Option.map_some, planFor, hunsold, hreleased, if_true, if_false]

omit hg hcar hbundle in
theorem part_kept_of_delivered (h : ∀ t, car.slots.get t ≠ some p) :
    g'.parts.parts.get? p = g.parts.parts.get? p := by
  have hunsold : p ∉ l.bundled.map Prod.snd := by
    rw [Listing.mem_bundledParts]
    rintro ⟨t, ht⟩
    exact h t (hready (t, p) (Listing.mem_bundled.mpr ht)).1
  have hkept : p ∉ (releasedSlots l car).filterMap car.slots.get := by
    rw [mem_releasedParts]
    rintro ⟨t, -, hslot⟩
    exact h t hslot
  simp only [hdelivered.parts, planFor, hunsold, hkept, if_false, Option.map_id']

/-- Every part that is on the car afterwards was sold with it. -/
theorem part_owner_of_delivered (hpart : g'.parts.parts.get? p = some part)
    (hmark : part.equippedTo = some c) : part.owner = buyer := by
  have hslot : g'.slotAt c part.kind = some p :=
    (hdelivered.sound.wired p c part.kind).mp (Garage.fitting_eq_some_iff.mpr ⟨part, hpart, rfl, hmark⟩)
  have hsold : (Garage.emptied car.slots (releasedSlots l car)).get part.kind = some p :=
    (Garage.slotAt_of_get? hdelivered.car_eq).symm.trans hslot
  rw [emptied_releasedSlots hbundle hready] at hsold
  obtain ⟨_, -, -, hnew⟩ := part_sold_of_delivered hg hcar hbundle hready hdelivered hsold
  cases hpart.symm.trans hnew
  rfl

end Delivered

end Market

end Paddock
