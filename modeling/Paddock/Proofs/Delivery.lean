import Paddock.Proofs.Offers

/-! How a car and its parts change hands: unsold parts come off, sold ones get the new owner. -/
namespace Paddock

variable {g g' : Garage} {c d : CarId} {p q : PartId} {t u : PartType} {car : Car} {part : Part}
  {ts : List PartType} {ps : List PartId} {source target : AccountId}

namespace Garage

/-- What neither slots nor owners have a part in. -/
structure Fixtures where
  lastPart : UInt64
  maxStat : UInt8
  partOperators : Table AccountId (KeySet AccountId)
  lastCar : UInt64
  maxCondition : UInt8
  carOperators : Table AccountId (KeySet AccountId)

def fixtures (g : Garage) : Fixtures where
  lastPart := g.parts.lastId
  maxStat := g.parts.maxStat
  partOperators := g.parts.approvals.operators
  lastCar := g.cars.lastId
  maxCondition := g.cars.maxCondition
  carOperators := g.cars.approvals.operators

/-! ### Slots emptied one after the other -/

def emptied (slots : PerType (Option PartId)) (ts : List PartType) : PerType (Option PartId) :=
  .ofFn fun t => if t ∈ ts then none else slots.get t

@[simp] theorem get_emptied (slots : PerType (Option PartId)) (ts : List PartType) (t : PartType) :
    (emptied slots ts).get t = if t ∈ ts then none else slots.get t :=
  PerType.get_ofFn _ t

theorem emptied_cons_of_none {slots : PerType (Option PartId)} (h : slots.get t = none) :
    emptied slots (t :: ts) = emptied slots ts := by
  refine PerType.ext_get fun u => ?_
  rw [get_emptied, get_emptied]
  by_cases hu : u = t
  · subst hu
    simp [h]
  · simp [hu]

theorem emptied_set_none (slots : PerType (Option PartId)) (t : PartType) (ts : List PartType) :
    emptied (slots.set t none) ts = emptied slots (t :: ts) := by
  refine PerType.ext_get fun u => ?_
  rw [get_emptied, get_emptied, PerType.get_set]
  by_cases hu : u = t
  · subst hu
    simp
  · simp [hu, Ne.symm hu]

/-- Some slots of a car were emptied, and their parts are loose. -/
structure Emptied (g : Garage) (c : CarId) (car : Car) (ts : List PartType) (g' : Garage) : Prop where
  sound : g'.Sound
  fixtures : g'.fixtures = g.fixtures
  car_eq : g'.cars.cars.get? c = some { car with slots := emptied car.slots ts }
  others : ∀ d, c ≠ d → g'.cars.cars.get? d = g.cars.cars.get? d
  parts : ∀ p, g'.parts.parts.get? p = (g.parts.parts.get? p).map fun part =>
    if p ∈ ts.filterMap car.slots.get then { part with equippedTo := none } else part

theorem exists_emptied (hg : g.Sound) (hcar : g.cars.cars.get? c = some car) (ts : List PartType) :
    ∃ g', Market.releaseAll c ts g = .ok () g' ∧ Emptied g c car ts g' := by
  -- Each slot is read from the car as the slots before have left it, so the car varies as well.
  induction ts generalizing g car with
  | nil =>
    refine ⟨g, rfl, hg, rfl, ?_, fun _ _ => rfl, fun p => by simp⟩
    rw [hcar, show emptied car.slots [] = car.slots from PerType.ext_get fun u => by simp [get_emptied]]
  | cons t ts ih =>
    simp only [Market.releaseAll, List.forM_eq_forM, List.forM_cons, Change.bind_ok_iff,
      Change.adaptExcept_ok_iff, Change.pure_ok_iff]
    cases hslot : car.slots.get t with
    | none =>
      obtain ⟨g', hrun, h⟩ := ih hg hcar
      refine ⟨g', ⟨(), g, ⟨none, g, ?_, trivial, rfl⟩, hrun⟩, h.sound, h.fixtures, ?_, h.others, ?_⟩
      · exact releaseInPlace_ok_iff.mpr ⟨car, hcar, hslot, rfl⟩
      · rw [emptied_cons_of_none hslot]
        exact h.car_eq
      · intro p
        rw [List.filterMap_cons_none hslot]
        exact h.parts p
    | some p =>
      obtain ⟨part, hpart, -, hmark⟩ := hg.part_of_slot ((slotAt_of_get? hcar).trans hslot)
      obtain ⟨g', hrun, h⟩ := ih (hg.detached hcar hpart hslot) (Table.get?_insert_self _ _ _)
      refine ⟨g', ⟨(), _, ⟨some p, _, ?_, trivial, rfl⟩, hrun⟩, h.sound, h.fixtures, ?_, ?_, ?_⟩
      · exact releaseInPlace_ok_iff.mpr
          ⟨car, hcar, hslot, part, hpart, by simp [Part.isEquipped, hmark], rfl⟩
      · rw [h.car_eq, emptied_set_none]
      · intro d hd
        exact (h.others d hd).trans (Table.get?_insert_ne _ _ hd)
      · intro q
        have hmarked : (g.detached c car t p part).parts.parts.get? q =
            if p = q then some { part with equippedTo := none } else g.parts.parts.get? q :=
          get?_mark _ _ _ _ _
        rw [h.parts, hmarked, List.filterMap_cons_some hslot]
        by_cases hq : p = q
        · subst hq
          simp [hpart]
        · have hrest : q ∈ ts.filterMap (car.slots.set t none).get ↔ q ∈ ts.filterMap car.slots.get := by
            simp only [List.mem_filterMap, PerType.get_set]
            refine exists_congr fun u => and_congr_right fun _ => ?_
            split
            · next hu => subst hu; simp [hslot, hq]
            · rfl
          simp [hq, Ne.symm hq, hrest]

/-! ### Parts handed over one after the other -/

/-- Some parts got a new owner. -/
structure PartsHanded (g : Garage) (ps : List PartId) (target : AccountId) (g' : Garage) : Prop where
  sound : g'.Sound
  fixtures : g'.fixtures = g.fixtures
  cars : g'.cars = g.cars
  parts : ∀ p, g'.parts.parts.get? p = (g.parts.parts.get? p).map fun part =>
    if p ∈ ps then { part with owner := target } else part

theorem fixtures_handed_part (g : Garage) (p : PartId) (part : Part) (target : AccountId) :
    ({ g with parts := g.parts.handed p part target } : Garage).fixtures = g.fixtures := by
  unfold PartRegistry.handed
  split <;> rfl

theorem fixtures_handed_car (g : Garage) (c : CarId) (car : Car) (target : AccountId) :
    ({ g with cars := g.cars.handed c car target } : Garage).fixtures = g.fixtures := by
  unfold CarRegistry.handed
  split <;> rfl

/-- Each part is handed over once, so it is still the source's when its turn comes. -/
theorem exists_partsHanded (hg : g.Sound) (hps : ps.Nodup)
    (howned : ∀ p ∈ ps, g.partOwner? p = some source) (target : AccountId) :
    ∃ g', Market.handParts ps source target g = .ok () g' ∧ PartsHanded g ps target g' := by
  induction ps generalizing g with
  | nil => exact ⟨g, rfl, hg, rfl, rfl, fun p => by simp⟩
  | cons p ps ih =>
    obtain ⟨hp, hps⟩ := List.nodup_cons.mp hps
    obtain ⟨part, hpart, howner⟩ := Option.map_eq_some_iff.mp (howned p List.mem_cons_self)
    obtain ⟨g', hrun, h⟩ := ih (hg.handPart hpart target) hps (by
      intro q hq
      simp only [partOwner?, get?_handed_part hpart]
      rw [if_neg (by rintro rfl; exact hp hq)]
      exact howned q (List.mem_cons_of_mem p hq))
    simp only [Market.handParts, List.forM_eq_forM, List.forM_cons, Change.bind_ok_iff,
      Change.within_ok_iff, PartRegistry.transferInPlace_ok_iff]
    refine ⟨g', ⟨(), _, ⟨_, ⟨part, hpart, howner, rfl⟩, rfl⟩, hrun⟩, h.sound, ?_, h.cars, fun q => ?_⟩
    · rw [h.fixtures, fixtures_handed_part]
    · rw [h.parts, get?_handed_part hpart]
      by_cases hq : p = q
      · subst hq
        simp [hpart, hp]
      · simp [hq, Ne.symm hq]

/-! ### The whole delivery -/

/-- A plan was carried out: unsold parts are loose, sold parts and the car are the buyer's. -/
structure Delivered (g : Garage) (plan : PurchasePlan) (car : Car) (g' : Garage) : Prop where
  sound : g'.Sound
  fixtures : g'.fixtures = g.fixtures
  car_eq : g'.cars.cars.get? plan.car =
    some { car with owner := plan.buyer, slots := emptied car.slots plan.released }
  others : ∀ d, plan.car ≠ d → g'.cars.cars.get? d = g.cars.cars.get? d
  parts : ∀ p, g'.parts.parts.get? p = (g.parts.parts.get? p).map fun part =>
    { part with
      owner := if p ∈ plan.bundled then plan.buyer else part.owner
      equippedTo := if p ∈ plan.released.filterMap car.slots.get then none else part.equippedTo }

/-- A delivery goes through where the car and the sold parts are the seller's. -/
theorem exists_delivered (hg : g.Sound) (plan : PurchasePlan)
    (hcar : g.cars.cars.get? plan.car = some car) (howner : car.owner = plan.seller)
    (hbundled : plan.bundled.Nodup) (howned : ∀ p ∈ plan.bundled, g.partOwner? p = some plan.seller) :
    ∃ g', Market.handOver plan g = .ok () g' ∧ Delivered g plan car g' := by
  obtain ⟨g₁, hrelease, h₁⟩ := exists_emptied hg hcar plan.released
  obtain ⟨g₂, hparts, h₂⟩ := exists_partsHanded h₁.sound hbundled (fun p hp => by
    rw [partOwner?, h₁.parts, Option.map_map, ← howned p hp, partOwner?]
    congr 1
    funext part
    simp only [Function.comp]
    split <;> rfl) plan.buyer
  have hcar₂ : g₂.cars.cars.get? plan.car = some { car with slots := emptied car.slots plan.released } := by
    rw [h₂.cars]
    exact h₁.car_eq
  refine ⟨{ g₂ with cars := g₂.cars.handed plan.car _ plan.buyer }, ?_, h₂.sound.handCar hcar₂ plan.buyer,
    ?_, ?_, fun d hd => ?_, fun p => ?_⟩
  · simp only [Market.handOver, Change.bind_ok_iff, Change.within_ok_iff, CarRegistry.transferInPlace_ok_iff]
    exact ⟨(), g₁, hrelease, (), g₂, hparts, _, ⟨_, hcar₂, howner, rfl⟩, rfl⟩
  · rw [fixtures_handed_car, h₂.fixtures, h₁.fixtures]
  · rw [get?_handed_car hcar₂, if_pos rfl]
  · rw [get?_handed_car hcar₂, if_neg hd, h₂.cars]
    exact h₁.others d hd
  · change g₂.parts.parts.get? p = _
    rw [h₂.parts, h₁.parts, Option.map_map]
    congr 1
    funext part
    simp only [Function.comp]
    split <;> split <;> rfl

end Garage

end Paddock
