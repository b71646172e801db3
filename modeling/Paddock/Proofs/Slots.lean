import Paddock.Proofs.Garage

/-! The marks on parts and the slots of cars say the same, whatever is done to a garage. -/
namespace Paddock.Garage

variable {g g' : Garage} {c d : CarId} {p q old new : PartId} {t u : PartType} {car : Car}
  {part oldPart newPart : Part} {mark : Option CarId} {content : Option PartId}

/-- The kind of a part, and the car that it is marked for. -/
def fitting (g : Garage) (p : PartId) : Option (PartType × Option CarId) :=
  (g.parts.parts.get? p).map fun part => (part.kind, part.equippedTo)

def slots? (g : Garage) (c : CarId) : Option (PerType (Option PartId)) :=
  (g.cars.cars.get? c).map Car.slots

def slotAt (g : Garage) (c : CarId) (t : PartType) : Option PartId :=
  (g.slots? c).bind (·.get t)

/-- A part is marked for a car exactly where the car's slot of its kind holds it, and no number
beyond the last one has been given away. -/
structure Sound (g : Garage) : Prop where
  wired : ∀ p c t, g.fitting p = some (t, some c) ↔ g.slotAt c t = some p
  parts_fresh : ∀ p, g.parts.lastId.toNat < p.number.toNat → g.parts.parts.get? p = none
  cars_fresh : ∀ c, g.cars.lastId.toNat < c.number.toNat → g.cars.cars.get? c = none

theorem fitting_eq_some_iff {m : Option CarId} :
    g.fitting p = some (t, m) ↔
      ∃ part, g.parts.parts.get? p = some part ∧ part.kind = t ∧ part.equippedTo = m := by
  simp [fitting]

theorem slotAt_eq_some_iff :
    g.slotAt c t = some p ↔ ∃ car, g.cars.cars.get? c = some car ∧ car.slots.get t = some p := by
  rw [slotAt, slots?, Option.bind_map, Option.bind_eq_some_iff]
  rfl

theorem slotAt_of_get? (h : g.cars.cars.get? c = some car) : g.slotAt c t = car.slots.get t := by
  simp [slotAt, slots?, h]

/-- Marks on parts and slots of cars answer to each other one to one. -/
structure Matched (g : Garage) : Prop where
  marked_iff : ∀ p part c, g.parts.parts.get? p = some part → (part.equippedTo = some c ↔
    ∃ car, g.cars.cars.get? c = some car ∧ car.slots.get part.kind = some p)
  held : ∀ c car t p, g.cars.cars.get? c = some car → car.slots.get t = some p →
    ∃ part, g.parts.parts.get? p = some part ∧ part.kind = t
  once : ∀ c car t d car' u p, g.cars.cars.get? c = some car → car.slots.get t = some p →
    g.cars.cars.get? d = some car' → car'.slots.get u = some p → c = d ∧ t = u

theorem Sound.part_of_slot (hg : g.Sound) (h : g.slotAt c t = some p) :
    ∃ part, g.parts.parts.get? p = some part ∧ part.kind = t ∧ part.equippedTo = some c :=
  fitting_eq_some_iff.mp ((hg.wired p c t).mpr h)

/-- A part is in one slot at most. -/
theorem Sound.slot_unique (hg : g.Sound) (h : g.slotAt c t = some p) (h' : g.slotAt d u = some p) :
    c = d ∧ t = u := by
  have hfit := (hg.wired p c t).mpr h
  rw [(hg.wired p d u).mpr h'] at hfit
  cases hfit
  exact ⟨rfl, rfl⟩

theorem Sound.matched (hg : g.Sound) : g.Matched where
  marked_iff p part c hpart := by
    rw [← slotAt_eq_some_iff, ← hg.wired]
    simp [fitting, hpart]
  held c car t p hcar hslot := by
    obtain ⟨part, hpart, hkind, -⟩ := hg.part_of_slot (slotAt_eq_some_iff.mpr ⟨car, hcar, hslot⟩)
    exact ⟨part, hpart, hkind⟩
  once c car t d car' u p hcar hslot hcar' hslot' :=
    hg.slot_unique (slotAt_eq_some_iff.mpr ⟨car, hcar, hslot⟩)
      (slotAt_eq_some_iff.mpr ⟨car', hcar', hslot'⟩)

theorem sound_new (maxStat maxCondition : UInt8) :
    (Garage.mk (.new maxStat) (.new maxCondition)).Sound where
  wired _ _ _ := by simp [fitting, slotAt, slots?, PartRegistry.new, CarRegistry.new, Table.get?_empty]
  parts_fresh _ _ := Table.get?_empty _
  cars_fresh _ _ := Table.get?_empty _

/-- Whoever owns what, and in what condition cars are, does not matter here. -/
theorem Sound.congr (hg : g.Sound) (hfit : ∀ p, g'.fitting p = g.fitting p)
    (hslots : ∀ c, g'.slots? c = g.slots? c) (hparts : g'.parts.lastId = g.parts.lastId)
    (hcars : g'.cars.lastId = g.cars.lastId) : g'.Sound where
  wired p c t := by
    rw [hfit, slotAt, hslots]
    exact hg.wired p c t
  parts_fresh p hp := by
    have := hfit p
    rw [fitting, fitting, hg.parts_fresh p (hparts ▸ hp)] at this
    simpa using this
  cars_fresh c hc := by
    have := hslots c
    rw [slots?, slots?, hg.cars_fresh c (hcars ▸ hc)] at this
    simpa using this

/-! ### Slots filled and emptied -/

theorem fitting_mark (g : Garage) (p q : PartId) (part : Part) (mark : Option CarId) :
    ({ g with parts := g.parts.mark p part mark } : Garage).fitting q =
      if p = q then some (part.kind, mark) else g.fitting q := by
  simp only [fitting, get?_mark]
  split <;> rfl

theorem slotAt_setSlot (h : g.cars.cars.get? c = some car) (d : CarId) (u : PartType) :
    (g.setSlot c car t content).slotAt d u = if c = d ∧ t = u then content else g.slotAt d u := by
  simp only [slotAt, slots?, setSlot, CarRegistry.put, Table.get?_insert]
  by_cases hd : c = d
  · subst hd
    simp [h, PerType.get_set]
  · simp [hd]

theorem fitting_attached : (g.attached c car t p part).fitting q =
    if p = q then some (part.kind, some c) else g.fitting q :=
  fitting_mark g p q part (some c)

theorem slotAt_attached (h : g.cars.cars.get? c = some car) :
    (g.attached c car t p part).slotAt d u = if c = d ∧ t = u then some p else g.slotAt d u :=
  slotAt_setSlot (g := { g with parts := g.parts.mark p part (some c) }) h d u

theorem fitting_detached : (g.detached c car t p part).fitting q =
    if p = q then some (part.kind, none) else g.fitting q :=
  fitting_mark g p q part none

theorem slotAt_detached (h : g.cars.cars.get? c = some car) :
    (g.detached c car t p part).slotAt d u = if c = d ∧ t = u then none else g.slotAt d u :=
  slotAt_setSlot (g := { g with parts := g.parts.mark p part none }) h d u

theorem parts_fresh_mark (hg : g.Sound) (hpart : g.parts.parts.get? p = some part)
    (hq : g.parts.lastId.toNat < q.number.toNat) : (g.parts.mark p part mark).parts.get? q = none := by
  have hnone := hg.parts_fresh q hq
  rw [get?_mark, if_neg, hnone]
  rintro rfl
  rw [hpart] at hnone
  cases hnone

theorem cars_fresh_put (hg : g.Sound) (hcar : g.cars.cars.get? c = some car)
    (hd : g.cars.lastId.toNat < d.number.toNat) {car' : Car} :
    (g.cars.put c car').cars.get? d = none := by
  have hnone := hg.cars_fresh d hd
  rw [CarRegistry.put, Table.get?_insert, if_neg, hnone]
  rintro rfl
  rw [hcar] at hnone
  cases hnone

theorem Sound.attached (hg : g.Sound) (hcar : g.cars.cars.get? c = some car)
    (hpart : g.parts.parts.get? p = some part) (hloose : part.equippedTo = none)
    (hkind : part.kind = t) (hslot : car.slots.get t = none) :
    (g.attached c car t p part).Sound where
  wired q d u := by
    have hfree : g.fitting p = some (t, none) := fitting_eq_some_iff.mpr ⟨part, hpart, hkind, hloose⟩
    have hempty : g.slotAt c t = none := (slotAt_of_get? hcar).trans hslot
    rw [fitting_attached, slotAt_attached hcar, hkind]
    by_cases hd : c = d ∧ t = u
    · obtain ⟨rfl, rfl⟩ := hd
      by_cases hq : p = q
      · simp [hq]
      · simp [hq, hg.wired, hempty]
    · rw [if_neg hd]
      by_cases hq : p = q
      · subst hq
        simp only [if_true, Option.some.injEq, Prod.mk.injEq, ← hg.wired, hfree, reduceCtorEq, and_false,
          iff_false]
        exact fun h => hd ⟨h.2, h.1⟩
      · rw [if_neg hq]
        exact hg.wired q d u
  parts_fresh _ hq := parts_fresh_mark hg hpart hq
  cars_fresh _ hd := cars_fresh_put hg hcar hd

theorem Sound.detached (hg : g.Sound) (hcar : g.cars.cars.get? c = some car)
    (hpart : g.parts.parts.get? p = some part) (hslot : car.slots.get t = some p) :
    (g.detached c car t p part).Sound where
  wired q d u := by
    have hheld : g.slotAt c t = some p := (slotAt_of_get? hcar).trans hslot
    have hmarked : g.fitting p = some (t, some c) := (hg.wired p c t).mpr hheld
    rw [fitting_detached, slotAt_detached hcar]
    by_cases hq : p = q
    · subst hq
      by_cases hd : c = d ∧ t = u
      · simp [hd]
      · simp only [if_true, Option.some.injEq, Prod.mk.injEq, reduceCtorEq, and_false, if_neg hd,
          ← hg.wired, hmarked, false_iff]
        exact fun h => hd ⟨h.2, h.1⟩
    · rw [if_neg hq, hg.wired]
      by_cases hd : c = d ∧ t = u
      · obtain ⟨rfl, rfl⟩ := hd
        simp [hheld, hq]
      · rw [if_neg hd]
  parts_fresh _ hq := parts_fresh_mark hg hpart hq
  cars_fresh _ hd := cars_fresh_put hg hcar hd

/-- Putting one part in the place of another comes to taking the one out and putting the other in. -/
theorem replaced_eq : g.replaced c car t old oldPart new newPart =
    (g.detached c car t old oldPart).attached c { car with slots := car.slots.set t none } t new newPart := by
  have hslots : (car.slots.set t none).set t (some new) = car.slots.set t (some new) :=
    PerType.ext_get fun u => by simp only [PerType.get_set]; split <;> rfl
  have hcars : (g.cars.cars.insert c { car with slots := car.slots.set t none }).insert c
      { car with slots := car.slots.set t (some new) } =
        g.cars.cars.insert c { car with slots := car.slots.set t (some new) } :=
    Table.ext_get? fun d => by simp only [Table.get?_insert]; split <;> rfl
  simp only [replaced, attached, detached, setSlot, CarRegistry.put, hslots, hcars]

theorem Sound.replaced (hg : g.Sound) (hcar : g.cars.cars.get? c = some car)
    (hslot : car.slots.get t = some old) (hold : g.parts.parts.get? old = some oldPart)
    (hnew : g.parts.parts.get? new = some newPart) (hloose : newPart.equippedTo = none)
    (hkind : newPart.kind = oldPart.kind) :
    (g.replaced c car t old oldPart new newPart).Sound := by
  have hmarked : g.fitting old = some (t, some c) :=
    (hg.wired old c t).mpr ((slotAt_of_get? hcar).trans hslot)
  obtain ⟨_, hold', hkindOld, hmark⟩ := fitting_eq_some_iff.mp hmarked
  obtain rfl := Option.some.inj (hold.symm.trans hold')
  have hne : old ≠ new := by
    rintro rfl
    obtain rfl := Option.some.inj (hold.symm.trans hnew)
    rw [hloose] at hmark
    cases hmark
  rw [replaced_eq]
  refine (hg.detached hcar hold hslot).attached ?_ ?_ hloose (hkind.trans hkindOld) ?_
  · exact Table.get?_insert_self _ _ _
  · exact (get?_mark _ _ _ _ _).trans ((if_neg hne).trans hnew)
  · exact PerType.get_set_self _ _ _

/-! ### New parts and cars -/

theorem get?_addPart (r : PartRegistry) (owner : AccountId) (spec : PartSpec) (mark : Option CarId)
    (q : PartId) : (r.addPart owner spec mark).parts.get? q =
      if (⟨r.lastId + 1⟩ : PartId) = q then some ⟨q, owner, spec, mark⟩ else r.parts.get? q := by
  simp only [PartRegistry.addPart, Table.get?_insert]
  split
  · next h => rw [h]
  · rfl

theorem number_nextIds {r : PartRegistry} (hroom : r.lastId.toNat + 3 < UInt64.size) (t : PartType) :
    ((nextIds r).get t).number.toNat = r.lastId.toNat + t.slot + 1 := by
  have hsize : UInt64.size = 2 ^ 64 := rfl
  cases t <;> simp only [nextIds, PerType.get, PartType.slot, UInt64.toNat_add, UInt64.toNat_one] <;> omega

theorem nextIds_inj {r : PartRegistry} (hroom : r.lastId.toNat + 3 < UInt64.size)
    (h : (nextIds r).get t = (nextIds r).get u) : t = u := by
  have ht := number_nextIds hroom t
  have hu := number_nextIds hroom u
  rw [h] at ht
  exact PartType.slot_inj (by omega)

theorem get?_minted (owner : AccountId) (image : String) (specs : PerType PartSpec) (q : PartId) :
    (g.minted owner image c specs).parts.parts.get? q =
      if (nextIds g.parts).get .wheels = q then some ⟨q, owner, specs.wheels, some c⟩
      else if (nextIds g.parts).get .transmission = q then some ⟨q, owner, specs.transmission, some c⟩
      else if (nextIds g.parts).get .engine = q then some ⟨q, owner, specs.engine, some c⟩
      else g.parts.parts.get? q := by
  simp only [minted, get?_addPart]
  rfl

theorem get?_minted_new (hroom : g.parts.lastId.toNat + 3 < UInt64.size) (owner : AccountId)
    (image : String) (specs : PerType PartSpec) (t : PartType) :
    (g.minted owner image c specs).parts.parts.get? ((nextIds g.parts).get t) =
      some ⟨(nextIds g.parts).get t, owner, specs.get t, some c⟩ := by
  have hne {t u} (h : t ≠ u) : (nextIds g.parts).get t ≠ (nextIds g.parts).get u :=
    fun he => h (nextIds_inj hroom he)
  rw [get?_minted]
  cases t
  · rw [if_neg (hne (t := .wheels) (u := .engine) nofun),
      if_neg (hne (t := .transmission) (u := .engine) nofun)]
    exact if_pos rfl
  · rw [if_neg (hne (t := .wheels) (u := .transmission) nofun)]
    exact if_pos rfl
  · exact if_pos rfl

theorem get?_minted_old (owner : AccountId) (image : String) (specs : PerType PartSpec)
    (hq : ∀ t, (nextIds g.parts).get t ≠ q) :
    (g.minted owner image c specs).parts.parts.get? q = g.parts.parts.get? q := by
  rw [get?_minted, if_neg (hq .wheels), if_neg (hq .transmission), if_neg (hq .engine)]

theorem slotAt_minted (owner : AccountId) (image : String) (specs : PerType PartSpec) :
    (g.minted owner image c specs).slotAt d u =
      if c = d then some ((nextIds g.parts).get u) else g.slotAt d u := by
  simp only [slotAt, slots?, minted, CarRegistry.addCar, Table.get?_insert]
  split
  · cases u <;> rfl
  · rfl

theorem Sound.minted (hg : g.Sound) (hroom : g.parts.lastId.toNat + 3 < UInt64.size)
    (hcar : g.cars.nextId = .ok c) (owner : AccountId) (image : String) {specs : PerType PartSpec}
    (hkind : ∀ t, (specs.get t).kind = t) : (g.minted owner image c specs).Sound := by
  obtain ⟨hroomCar, rfl⟩ := CarRegistry.nextId_eq_ok_iff.mp hcar
  have hnumber : (g.cars.lastId + 1).toNat = g.cars.lastId.toNat + 1 := toNat_next hroomCar
  have hnoPart (t) : g.parts.parts.get? ((nextIds g.parts).get t) = none :=
    hg.parts_fresh _ (by rw [number_nextIds hroom]; omega)
  have hnoCar : g.cars.cars.get? ⟨g.cars.lastId + 1⟩ = none :=
    hg.cars_fresh _ (by simp only [hnumber]; omega)
  refine ⟨fun q d u => ?_, fun q hq => ?_, fun d hd => ?_⟩
  · rw [slotAt_minted]
    -- A new part is in the new car and nowhere else; for an old one the question is about the old garage.
    by_cases hnew : ∃ v, (nextIds g.parts).get v = q
    · obtain ⟨v, rfl⟩ := hnew
      have hfit : g.fitting ((nextIds g.parts).get v) = none := by simp [fitting, hnoPart]
      simp only [fitting, get?_minted_new hroom, Option.map_some, Part.kind, hkind, Option.some.injEq,
        Prod.mk.injEq]
      split
      · next hd =>
        simp only [hd, and_true, Option.some.injEq]
        exact ⟨fun h => h ▸ rfl, fun h => (nextIds_inj hroom h).symm⟩
      · next hd => simp [hd, ← hg.wired, hfit]
    · have hold : ∀ t, (nextIds g.parts).get t ≠ q := fun t h => hnew ⟨t, h⟩
      simp only [fitting, get?_minted_old owner image specs hold]
      change g.fitting q = _ ↔ _
      rw [hg.wired]
      split
      · next hd => subst hd; simp [slotAt, slots?, hnoCar, hold]
      · rfl
  · have hq : g.parts.lastId.toNat + 2 + 1 < q.number.toNat := by
      have := number_nextIds hroom .wheels
      change (g.parts.lastId + 1 + 1 + 1).toNat < _ at hq
      change (g.parts.lastId + 1 + 1 + 1).toNat = g.parts.lastId.toNat + 2 + 1 at this
      omega
    rw [get?_minted_old]
    · exact hg.parts_fresh q (by omega)
    · rintro t rfl
      have := number_nextIds hroom t
      cases t <;> simp only [PartType.slot] at this <;> omega
  · change (g.cars.lastId + 1).toNat < d.number.toNat at hd
    simp only [Garage.minted, CarRegistry.addCar, Table.get?_insert]
    rw [if_neg, hg.cars_fresh d (by omega)]
    rintro rfl
    exact absurd hd (Nat.lt_irrefl _)

theorem Sound.addLoose (hg : g.Sound) (hroom : g.parts.lastId.toNat + 1 < UInt64.size)
    (owner : AccountId) (spec : PartSpec) :
    ({ g with parts := g.parts.addPart owner spec none } : Garage).Sound := by
  have hnumber : (g.parts.lastId + 1).toNat = g.parts.lastId.toNat + 1 := toNat_next hroom
  have hnoPart : g.parts.parts.get? ⟨g.parts.lastId + 1⟩ = none :=
    hg.parts_fresh _ (by simp only [hnumber]; omega)
  refine ⟨fun q d u => ?_, fun q hq => ?_, hg.cars_fresh⟩
  · change _ ↔ g.slotAt d u = some q
    rw [← hg.wired]
    simp only [fitting, get?_addPart]
    split
    · next hq => subst hq; simp [hnoPart]
    · rfl
  · change (g.parts.lastId + 1).toNat < q.number.toNat at hq
    rw [get?_addPart, if_neg, hg.parts_fresh q (by omega)]
    rintro rfl
    exact absurd hq (Nat.lt_irrefl _)

/-! ### Old parts and cars beside new ones -/

/-- A number that is given out for the first time takes nothing away. -/
theorem Sound.get?_part_minted (hg : g.Sound) (hroom : g.parts.lastId.toNat + 3 < UInt64.size)
    (hpart : g.parts.parts.get? p = some part) (owner : AccountId) (image : String)
    (specs : PerType PartSpec) : (g.minted owner image c specs).parts.parts.get? p = some part := by
  rw [get?_minted_old owner image specs, hpart]
  rintro t rfl
  rw [hg.parts_fresh _ (by rw [number_nextIds hroom]; omega)] at hpart
  cases hpart

theorem Sound.get?_car_minted (hg : g.Sound) (hnext : g.cars.nextId = .ok c)
    (hcar : g.cars.cars.get? d = some car) (owner : AccountId) (image : String)
    (specs : PerType PartSpec) : (g.minted owner image c specs).cars.cars.get? d = some car := by
  obtain ⟨hroom, rfl⟩ := CarRegistry.nextId_eq_ok_iff.mp hnext
  refine (Table.get?_insert_ne _ _ ?_).trans hcar
  rintro rfl
  rw [hg.cars_fresh _ (by rw [toNat_next hroom]; omega)] at hcar
  cases hcar

theorem Sound.get?_part_addLoose (hg : g.Sound) (hroom : g.parts.lastId.toNat + 1 < UInt64.size)
    (hpart : g.parts.parts.get? p = some part) (owner : AccountId) (spec : PartSpec) :
    (g.parts.addPart owner spec none).parts.get? p = some part := by
  rw [get?_addPart, if_neg, hpart]
  rintro rfl
  rw [hg.parts_fresh _ (by rw [toNat_next hroom]; omega)] at hpart
  cases hpart

/-! ### New owners -/

theorem get?_handed_part (h : g.parts.parts.get? p = some part) (target : AccountId) (q : PartId) :
    (g.parts.handed p part target).parts.get? q =
      if p = q then some { part with owner := target } else g.parts.parts.get? q := by
  unfold PartRegistry.handed
  split
  · next howner => subst howner; split <;> simp_all
  · exact Table.get?_insert _ _ _ _

theorem get?_handed_car (h : g.cars.cars.get? c = some car) (target : AccountId) (d : CarId) :
    (g.cars.handed c car target).cars.get? d =
      if c = d then some { car with owner := target } else g.cars.cars.get? d := by
  unfold CarRegistry.handed
  split
  · next howner => subst howner; split <;> simp_all
  · exact Table.get?_insert _ _ _ _

theorem lastId_handed_part (r : PartRegistry) (p : PartId) (part : Part) (target : AccountId) :
    (r.handed p part target).lastId = r.lastId := by
  unfold PartRegistry.handed
  split <;> rfl

theorem lastId_handed_car (r : CarRegistry) (c : CarId) (car : Car) (target : AccountId) :
    (r.handed c car target).lastId = r.lastId := by
  unfold CarRegistry.handed
  split <;> rfl

theorem Sound.handPart (hg : g.Sound) (h : g.parts.parts.get? p = some part) (target : AccountId) :
    ({ g with parts := g.parts.handed p part target } : Garage).Sound := by
  refine hg.congr (fun q => ?_) (fun _ => rfl) (lastId_handed_part ..) rfl
  simp only [fitting, get?_handed_part h]
  split
  · next hq => subst hq; simp [h, Part.kind]
  · rfl

theorem Sound.handCar (hg : g.Sound) (h : g.cars.cars.get? c = some car) (target : AccountId) :
    ({ g with cars := g.cars.handed c car target } : Garage).Sound := by
  refine hg.congr (fun _ => rfl) (fun d => ?_) rfl (lastId_handed_car ..)
  simp only [slots?, get?_handed_car h]
  split
  · next hd => subst hd; simp [h]
  · rfl

theorem Sound.withCondition (hg : g.Sound) (h : g.cars.cars.get? c = some car) (condition : UInt8) :
    ({ g with cars := g.cars.withCondition c car condition } : Garage).Sound := by
  refine hg.congr (fun _ => rfl) (fun d => ?_) rfl rfl
  simp only [slots?, CarRegistry.withCondition, CarRegistry.put, Table.get?_insert]
  split
  · next hd => subst hd; simp [h]
  · rfl

end Paddock.Garage
