import Paddock.Proofs.Leaderboard
import Paddock.Proofs.Sale

/-!
A garage without stats and images. No change depends on what is left out, so each does to the outline
of a garage what it does to the garage.
-/
namespace Paddock

namespace Table

variable {κ α β : Type} [Key κ]

/-- Other values under the same keys. -/
def map (f : α → β) (t : Table κ α) : Table κ β where
  entries := t.entries.map fun e => (e.1, f e.2)
  sorted := by
    rw [Sorted, List.pairwise_map]
    exact t.sorted

theorem get?_map (f : α → β) (t : Table κ α) (k : κ) : (t.map f).get? k = (t.get? k).map f := by
  simp only [get?, map, List.find?_map, Option.map_map, Function.comp_def]

theorem map_insert (f : α → β) (t : Table κ α) (k : κ) (v : α) :
    (t.insert k v).map f = (t.map f).insert k (f v) := by
  refine ext_get? fun k' => ?_
  simp only [get?_map, get?_insert]
  split <;> rfl

end Table

/-! ### Parts -/

/-- A spec that says the kind and no more. -/
def PartSpec.blank (kind : PartType) : PartSpec := ⟨kind, ⟨0, 0, 0⟩, ""⟩

def Part.outline (part : Part) : Part := { part with spec := .blank part.kind }

namespace PartRegistry

variable {r r' : PartRegistry} {id : PartId} {part : Part} {owner target : AccountId}
  {spec : PartSpec} {car : Option CarId}

def outline (r : PartRegistry) : PartRegistry := { r with parts := r.parts.map Part.outline }

theorem get?_outline (h : r.parts.get? id = some part) : r.outline.parts.get? id = some part.outline := by
  rw [outline, Table.get?_map, h, Option.map_some]

theorem ownerOf_outline (r : PartRegistry) (id : PartId) : r.outline.ownerOf id = r.ownerOf id := by
  simp only [ownerOf, get, outline, Table.get?_map]
  cases r.parts.get? id <;> rfl

theorem outline_addPart (r : PartRegistry) (owner : AccountId) (spec : PartSpec) (car : Option CarId) :
    (r.addPart owner spec car).outline = r.outline.addPart owner (.blank spec.kind) car := by
  simp only [outline, addPart, Table.map_insert]
  rfl

theorem outline_mark (r : PartRegistry) (id : PartId) (part : Part) (car : Option CarId) :
    (r.mark id part car).outline = r.outline.mark id part.outline car := by
  simp only [outline, mark, Table.map_insert]
  rfl

theorem outline_handed (r : PartRegistry) (id : PartId) (part : Part) (target : AccountId) :
    (r.handed id part target).outline = r.outline.handed id part.outline target := by
  by_cases howner : part.owner = target
  · rw [handed, if_pos howner, handed, if_pos (show part.outline.owner = target from howner)]
  · rw [handed, if_neg howner, handed, if_neg (show ¬ part.outline.owner = target from howner)]
    simp only [outline, give, Table.map_insert]
    rfl

/-- The owner may always do what was done for the owner. -/
theorem transferFrom_outline {caller : AccountId} (howner : r.ownerOf id = .ok owner)
    (h : r.transferFrom caller id target = .ok r') :
    r.outline.transferFrom owner id target = .ok r'.outline := by
  obtain ⟨part, hpart, -, hloose, rfl⟩ := transferFrom_eq_ok_iff.mp h
  obtain ⟨found, hfound, rfl⟩ := ownerOf_eq_ok_iff.mp howner
  obtain rfl := Option.some.inj (hpart.symm.trans hfound)
  exact transferFrom_eq_ok_iff.mpr ⟨part.outline, get?_outline hpart, r.approvals.isAuthorized_self part.owner id,
    hloose, (outline_handed r id part target).symm⟩

theorem validateSpec_blank (r : PartRegistry) (kind : PartType) : r.validateSpec (.blank kind) = .ok () := by
  have hzero : ¬ r.maxStat < 0 := UInt8.not_lt.mpr (UInt8.zero_le)
  simp [validateSpec, PartSpec.blank, PartStats.toList, hzero]

theorem mint_outline (h : r.mint owner spec car = .ok (id, r')) :
    r.outline.mint owner (.blank spec.kind) car = .ok (id, r'.outline) := by
  obtain ⟨-, hroom, rfl, rfl⟩ := mint_eq_ok_iff.mp h
  exact mint_eq_ok_iff.mpr ⟨validateSpec_blank _ _, hroom, rfl, outline_addPart r owner spec car⟩

end PartRegistry

/-! ### Cars -/

def Car.outline (car : Car) : Car := { car with image := "" }

namespace CarRegistry

variable {r r' : CarRegistry} {id : CarId} {car : Car} {amount condition : UInt8}

def outline (r : CarRegistry) : CarRegistry := { r with cars := r.cars.map Car.outline }

theorem get?_outline (h : r.cars.get? id = some car) : r.outline.cars.get? id = some car.outline := by
  rw [outline, Table.get?_map, h, Option.map_some]

theorem ownerOf_outline (r : CarRegistry) (id : CarId) : r.outline.ownerOf id = r.ownerOf id := by
  simp only [ownerOf, get, outline, Table.get?_map]
  cases r.cars.get? id <;> rfl

theorem outline_put (r : CarRegistry) (id : CarId) (car : Car) :
    (r.put id car).outline = r.outline.put id car.outline := by
  simp only [outline, put, Table.map_insert]

theorem outline_addCar (r : CarRegistry) (id : CarId) (owner : AccountId) (image : String)
    (slots : PerType (Option PartId)) :
    (r.addCar id owner image slots).outline = r.outline.addCar id owner "" slots := by
  simp only [outline, addCar, Table.map_insert]
  rfl

theorem outline_handed (r : CarRegistry) (id : CarId) (car : Car) (target : AccountId) :
    (r.handed id car target).outline = r.outline.handed id car.outline target := by
  by_cases howner : car.owner = target
  · rw [handed, if_pos howner, handed, if_pos (show car.outline.owner = target from howner)]
  · rw [handed, if_neg howner, handed, if_neg (show ¬ car.outline.owner = target from howner)]
    simp only [outline, give, Table.map_insert]
    rfl

theorem outline_withCondition (r : CarRegistry) (id : CarId) (car : Car) (condition : UInt8) :
    (r.withCondition id car condition).outline = r.outline.withCondition id car.outline condition :=
  outline_put r id { car with condition }

theorem transferFrom_outline {caller owner target : AccountId} (howner : r.ownerOf id = .ok owner)
    (h : r.transferFrom caller id target = .ok r') :
    r.outline.transferFrom owner id target = .ok r'.outline := by
  obtain ⟨car, hcar, -, rfl⟩ := transferFrom_eq_ok_iff.mp h
  obtain ⟨found, hfound, rfl⟩ := ownerOf_eq_ok_iff.mp howner
  obtain rfl := Option.some.inj (hcar.symm.trans hfound)
  exact transferFrom_eq_ok_iff.mpr ⟨car.outline, get?_outline hcar, r.approvals.isAuthorized_self car.owner id,
    (outline_handed r id car target).symm⟩

theorem wear_outline (h : r.wear id amount = .ok (condition, r')) :
    r.outline.wear id amount = .ok (condition, r'.outline) := by
  obtain ⟨car, hcar, hcondition, rfl⟩ := wear_eq_ok_iff.mp h
  exact wear_eq_ok_iff.mpr ⟨car.outline, get?_outline hcar, hcondition, (outline_withCondition r id car _).symm⟩

end CarRegistry

/-! ### The workshop and the leaderboard -/

section

variable {r r' : CarRegistry} {caller operator : AccountId} {id : CarId} {payment charged : Amount}

theorem Workshop.checkRepair_outline {w : Workshop} (h : w.checkRepair r caller id payment = .ok charged) :
    w.checkRepair r.outline caller id payment = .ok charged := by
  obtain ⟨car, hcar, howner, hpayment, hcharged⟩ := checkRepair_eq_ok_iff.mp h
  exact checkRepair_eq_ok_iff.mpr ⟨car.outline, CarRegistry.get?_outline hcar, howner, hpayment, hcharged⟩

theorem Workshop.repair_outline {w : Workshop} {receipt : RepairReceipt}
    (h : w.repair r caller id payment = .ok (receipt, r')) :
    w.repair r.outline caller id payment = .ok (receipt, r'.outline) := by
  obtain ⟨car, condition, hcar, howner, hprice, hcondition, hreceipt, rfl⟩ := repair_eq_ok_iff.mp h
  exact repair_eq_ok_iff.mpr ⟨car.outline, condition, CarRegistry.get?_outline hcar, howner, hprice, hcondition,
    hreceipt, (CarRegistry.outline_withCondition r id car condition).symm⟩

/-- The operator may do what the authority may. -/
theorem Workshop.wear_outline {w : Workshop} {amount condition : UInt8}
    (h : w.wear r caller operator id amount = .ok (condition, r')) :
    w.wear r.outline operator operator id amount = .ok (condition, r'.outline) :=
  wear_eq_ok_iff.mpr ⟨.inl rfl, CarRegistry.wear_outline (wear_eq_ok_iff.mp h).2⟩

theorem Leaderboard.record_outline {b b' : Leaderboard} {score : UInt64} {improved : Bool}
    (h : b.record r caller operator id score = .ok (improved, b')) :
    b.record r.outline operator operator id score = .ok (improved, b') := by
  obtain ⟨-, ⟨car, hcar⟩, h⟩ := record_eq_ok_iff.mp h
  exact record_eq_ok_iff.mpr ⟨isAuthorized_iff.mpr (.inl rfl), ⟨car.outline, CarRegistry.get?_outline hcar⟩, h⟩

end

/-! ### Cars and parts together -/

namespace Garage

variable {g g' : Garage} {c : CarId} {p : PartId} {t : PartType} {car : Car} {part : Part}

def outline (g : Garage) : Garage := ⟨g.parts.outline, g.cars.outline⟩

theorem outline_attached (g : Garage) (c : CarId) (car : Car) (t : PartType) (p : PartId) (part : Part) :
    (g.attached c car t p part).outline = g.outline.attached c car.outline t p part.outline := by
  simp only [outline, attached, setSlot, PartRegistry.outline_mark, CarRegistry.outline_put]
  rfl

theorem outline_detached (g : Garage) (c : CarId) (car : Car) (t : PartType) (p : PartId) (part : Part) :
    (g.detached c car t p part).outline = g.outline.detached c car.outline t p part.outline := by
  simp only [outline, detached, setSlot, PartRegistry.outline_mark, CarRegistry.outline_put]
  rfl

theorem outline_replaced (g : Garage) (c : CarId) (car : Car) (t : PartType) (old new : PartId)
    (oldPart newPart : Part) : (g.replaced c car t old oldPart new newPart).outline =
      g.outline.replaced c car.outline t old oldPart.outline new newPart.outline := by
  rw [replaced_eq, replaced_eq, outline_attached, outline_detached]
  rfl

theorem respects_equip (caller : AccountId) (c : CarId) (p : PartId) (n : Nat) :
    (equipInPlace caller c p n).Respects outline := by
  intro g _ g' h
  obtain ⟨t, car, part, ht, hcar, hc, hpart, hp, hloose, hkind, hslot, rfl⟩ := equipInPlace_ok_iff.mp h
  exact equipInPlace_ok_iff.mpr ⟨t, car.outline, part.outline, ht, CarRegistry.get?_outline hcar, hc,
    PartRegistry.get?_outline hpart, hp, hloose, hkind, hslot, (outline_attached ..).symm⟩

theorem respects_release (c : CarId) (t : PartType) : (releaseInPlace c t).Respects outline := by
  intro g held g' h
  obtain ⟨car, hcar, hslot, h⟩ := releaseInPlace_ok_iff.mp h
  refine releaseInPlace_ok_iff.mpr ⟨car.outline, CarRegistry.get?_outline hcar, hslot, ?_⟩
  cases held with
  | none => rw [h]
  | some p =>
    obtain ⟨part, hpart, hmark, rfl⟩ := h
    exact ⟨part.outline, PartRegistry.get?_outline hpart, hmark, (outline_detached ..).symm⟩

theorem respects_unequip (caller : AccountId) (c : CarId) (p : PartId) :
    (unequipInPlace caller c p).Respects outline := by
  intro g _ g' h
  obtain ⟨t, car, part, hcar, hc, hslot, hpart, hmark, rfl⟩ := unequipInPlace_ok_iff.mp h
  exact unequipInPlace_ok_iff.mpr ⟨t, car.outline, part.outline, CarRegistry.get?_outline hcar, hc, hslot,
    PartRegistry.get?_outline hpart, hmark, (outline_detached ..).symm⟩

theorem respects_replace (caller : AccountId) (c : CarId) (old new : PartId) :
    (replaceInPlace caller c old new).Respects outline := by
  intro g _ g' h
  obtain ⟨t, car, oldPart, newPart, hcar, hc, hslot, hold, hmark, hnew, hp, hloose, hkind, rfl⟩ :=
    replaceInPlace_ok_iff.mp h
  exact replaceInPlace_ok_iff.mpr ⟨t, car.outline, oldPart.outline, newPart.outline,
    CarRegistry.get?_outline hcar, hc, hslot, PartRegistry.get?_outline hold, hmark,
    PartRegistry.get?_outline hnew, hp, hloose, hkind, (outline_replaced ..).symm⟩

/-- A blank spec for each slot. -/
def blanks : List PartSpec := PartType.all.map .blank

/-- Whatever a car was minted from, its parts are of the kinds of its slots. -/
theorem mint_outline {owner : AccountId} {image : String} {specs : List PartSpec}
    (h : mintInPlace owner image specs g = .ok c g') :
    mintInPlace owner "" blanks g.outline = .ok c g'.outline := by
  obtain ⟨arranged, hvalid, hcar, -, hroom, rfl⟩ := mintInPlace_ok_iff.mp h
  obtain ⟨hone, -, -⟩ := validateMint_eq_ok_iff.mp hvalid
  have hnext : g.outline.cars.nextId = .ok c := hcar
  have hblank : ∀ spec ∈ blanks, g.outline.parts.validateSpec spec = .ok () := by
    intro spec hspec
    obtain ⟨kind, -, rfl⟩ := List.mem_map.mp hspec
    exact PartRegistry.validateSpec_blank _ _
  refine mintInPlace_ok_iff.mpr ⟨.ofFn .blank, ?_, hnext, ?_, hroom, ?_⟩
  · simp only [validateMint, bind_eq_ok_iff, pure_eq_ok_iff]
    exact ⟨_, rfl, (), mapError_eq_ok_iff.mpr (forM_eq_ok_iff.mpr hblank), c, hnext, rfl⟩
  · exact forM_eq_ok_iff.mpr (List.forall_mem_map.mpr hblank)
  · have hengine : arranged.engine.kind = .engine := (hone.get_mem .engine).2
    have htransmission : arranged.transmission.kind = .transmission := (hone.get_mem .transmission).2
    have hwheels : arranged.wheels.kind = .wheels := (hone.get_mem .wheels).2
    simp only [outline, minted, PartRegistry.outline_addPart, CarRegistry.outline_addCar, PerType.ofFn, hengine,
      htransmission, hwheels]
    rfl

end Garage

/-! ### The market -/

/-- The plan of the buyer who attaches the price and no more. -/
def PurchasePlan.atPrice (plan : PurchasePlan) : PurchasePlan :=
  { plan with refund := plan.price - plan.price }

namespace Market

open Garage (outline)

variable {m m' : Market} {g g' : Garage} {c : CarId} {car : Car} {buyer seller : AccountId}
  {price payment : Amount} {included : PerType Bool} {plan : PurchasePlan}

theorem bundlePart_outline (g : Garage) (seller : AccountId) (c : CarId) (car : Car)
    (included : PerType Bool) (t : PartType) :
    bundlePart g.outline seller c car.outline included t = bundlePart g seller c car included t := by
  unfold bundlePart
  simp only [outline, PartRegistry.ownerOf_outline]
  rfl

theorem list_outline (h : m.list g seller c price included = .ok m') :
    m.list g.outline seller c price included = .ok m' := by
  obtain ⟨hprice, car, parts, hcar, howner, hfree, hparts, hm⟩ := list_eq_ok_iff.mp h
  have hcar := CarRegistry.get?_outline hcar
  refine list_eq_ok_iff.mpr ⟨hprice, car.outline, parts, hcar, howner, hfree, fun t => ?_, hm⟩
  rw [bundlePart_outline]
  exact hparts t

/-- What was attached beyond the price makes no difference but to the refund. -/
theorem plan_outline (h : m.plan g buyer c payment = .ok plan) :
    m.plan g.outline plan.buyer plan.car plan.price = .ok plan.atPrice := by
  obtain ⟨l, car, fee, hl, hactive, -, hcar, howner, hmay, hready, hfee, rfl⟩ := plan_eq_ok_iff.mp h
  have hcar := CarRegistry.get?_outline hcar
  refine plan_eq_ok_iff.mpr
    ⟨l, car.outline, fee, hl, hactive, Nat.le_refl _, hcar, howner, hmay, fun x hx => ?_, hfee, rfl⟩
  obtain ⟨hslot, part, hpart, hseller, hauthorized⟩ := hready x hx
  exact ⟨hslot, part.outline, PartRegistry.get?_outline hpart, hseller, hauthorized⟩

theorem respects_releaseAll (c : CarId) (ts : List PartType) : (releaseAll c ts).Respects outline :=
  Change.respects_forM fun t => (Garage.respects_release c t).adaptExcept.bind fun _ => Change.respects_pure ()

theorem respects_handParts (ps : List PartId) (seller buyer : AccountId) :
    (handParts ps seller buyer).Respects outline := by
  refine Change.respects_forM fun p => ?_
  intro g _ g' h
  simp only [Change.within_ok_iff, PartRegistry.transferInPlace_ok_iff] at h ⊢
  obtain ⟨_, ⟨part, hpart, howner, rfl⟩, rfl⟩ := h
  exact ⟨_, ⟨part.outline, PartRegistry.get?_outline hpart, howner, rfl⟩,
    congrArg (Garage.mk · g.cars.outline) (PartRegistry.outline_handed ..).symm⟩

theorem respects_handOver (plan : PurchasePlan) : (handOver plan).Respects outline := by
  refine (respects_releaseAll _ _).bind fun _ => (respects_handParts _ _ _).bind fun _ => ?_
  intro g _ g' h
  simp only [Change.within_ok_iff, CarRegistry.transferInPlace_ok_iff] at h ⊢
  obtain ⟨_, ⟨car, hcar, howner, rfl⟩, rfl⟩ := h
  exact ⟨_, ⟨car.outline, CarRegistry.get?_outline hcar, howner, rfl⟩,
    congrArg (Garage.mk g.parts.outline) (CarRegistry.outline_handed ..).symm⟩

theorem settle_outline (h : settleInPlace plan (m, g) = .ok () (m', g')) :
    settleInPlace plan.atPrice (m, g.outline) = .ok () (m', g'.outline) := by
  obtain ⟨hrun, rfl⟩ := settleInPlace_ok_iff.mp h
  exact settleInPlace_ok_iff.mpr ⟨respects_handOver plan hrun, rfl⟩

end Market

end Paddock
