import Paddock.Proofs.Coherent
import Paddock.Proofs.Holdings

/-! What the two registries keep for every owner goes with the records, whatever is done to a garage. -/
namespace Paddock

/-! ### Cars and their owners -/

namespace CarRegistry

variable {r r' : CarRegistry} {c d : CarId} {car : Car} {a owner target : AccountId}

/-- Every owner's list names the cars that are the owner's, every car is filed under its own number, and
no number beyond the last one has been given away. -/
structure Ordered (r : CarRegistry) : Prop where
  indexed : ∀ a c, c ∈ (r.carsOf a).items ↔ ∃ car, r.cars.get? c = some car ∧ car.owner = a
  filed : ∀ c car, r.cars.get? c = some car → car.id = c
  fresh : ∀ c, r.lastId.toNat < c.number.toNat → r.cars.get? c = none

theorem ordered_new (maxCondition : UInt8) : (new maxCondition).Ordered where
  indexed a c := by
    constructor
    · intro h
      cases h
    · rintro ⟨car, h, -⟩
      cases h
  filed _ _ h := by cases h
  fresh _ _ := rfl

/-- Approvals do not matter here. -/
theorem Ordered.withApprovals (h : r.Ordered) (approvals : Approvals CarId) :
    ({ r with approvals } : CarRegistry).Ordered := ⟨h.indexed, h.filed, h.fresh⟩

theorem Ordered.put (h : r.Ordered) (hcar : r.cars.get? c = some car) (car' : Car) (hid : car'.id = car.id)
    (howner : car'.owner = car.owner) : (r.put c car').Ordered where
  indexed a d := by
    refine (h.indexed a d).trans ?_
    simp only [CarRegistry.put, Table.get?_insert]
    by_cases hd : c = d
    · subst hd
      simp [hcar, howner]
    · simp [hd]
  filed d found hfound := by
    rw [CarRegistry.put, Table.get?_insert] at hfound
    split at hfound
    · next hd =>
      cases hfound
      rw [hid, ← hd]
      exact h.filed c car hcar
    · exact h.filed d found hfound
  fresh d hd := by
    rw [CarRegistry.put, Table.get?_insert, if_neg, h.fresh d hd]
    rintro rfl
    rw [h.fresh c hd] at hcar
    cases hcar

theorem Ordered.addCar (h : r.Ordered) (hroom : r.lastId.toNat + 1 < UInt64.size) (owner : AccountId)
    (image : String) (slots : PerType (Option PartId)) :
    (r.addCar ⟨r.lastId + 1⟩ owner image slots).Ordered := by
  have hnext : (r.lastId + 1).toNat = r.lastId.toNat + 1 := toNat_next hroom
  have hfree : r.cars.get? ⟨r.lastId + 1⟩ = none := h.fresh _ (by simp only [hnext]; omega)
  refine ⟨fun a d => ?_, fun d found hfound => ?_, fun d hd => ?_⟩
  · simp only [carsOf, CarRegistry.addCar, Table.get?_insert]
    have hold := h.indexed a d
    by_cases hd : (⟨r.lastId + 1⟩ : CarId) = d
    · subst hd
      simp only [hfree, reduceCtorEq, false_and, exists_false, iff_false] at hold
      by_cases ha : owner = a
      · subst ha
        simp [TokenIndex.mem_insert]
      · simp only [ha, if_false, if_true, Option.some.injEq, exists_eq_left', iff_false]
        exact hold
    · by_cases ha : owner = a
      · subst ha
        simp only [if_true, hd, if_false, Option.getD_some, TokenIndex.mem_insert, false_or]
        exact hold
      · simp only [ha, hd, if_false]
        exact hold
  · simp only [CarRegistry.addCar, Table.get?_insert] at hfound
    split at hfound
    · next hd =>
      cases hfound
      exact hd
    · exact h.filed d found hfound
  · change (r.lastId + 1).toNat < d.number.toNat at hd
    simp only [CarRegistry.addCar, Table.get?_insert]
    rw [if_neg, h.fresh d (by omega)]
    rintro rfl
    exact absurd hd (Nat.lt_irrefl _)

theorem mem_dropCar : d ∈ (((r.dropCar owner c).get? a).getD .empty).items ↔
    d ∈ (r.carsOf a).items ∧ (owner = a → c ≠ d) := by
  unfold dropCar carsOf
  cases hindex : r.owners.get? owner with
  | none =>
    by_cases ha : owner = a
    · subst ha
      simp [hindex, TokenIndex.empty]
    · simp [ha]
  | some index =>
    by_cases ha : owner = a
    · subst ha
      have hrest : d ∈ (index.remove c).items ↔ d ∈ index.items ∧ c ≠ d := by rw [TokenIndex.mem_remove, and_comm]
      simp only [hindex, Option.getD_some, forall_const, ← hrest]
      split
      · next hempty =>
        have hnil : (index.remove c).items = [] := List.isEmpty_iff.mp hempty
        simp [Table.get?_erase, TokenIndex.empty, hnil]
      · simp [Table.get?_insert]
    · dsimp only
      split
      · simp [Table.get?_erase, ha]
      · simp [Table.get?_insert, ha]

theorem Ordered.give (h : r.Ordered) (hcar : r.cars.get? c = some car) (target : AccountId) :
    (r.give c car target).Ordered := by
  have hput := h.put hcar { car with owner := target } rfl
  refine ⟨fun a d => ?_, fun d found hfound => ?_, fun d hd => ?_⟩
  · have hmem : d ∈ ((r.give c car target).carsOf a).items ↔
        (target = a ∧ c = d) ∨ (d ∈ (r.carsOf a).items ∧ (car.owner = a → c ≠ d)) := by
      rw [← mem_dropCar, carsOf, CarRegistry.give, Table.get?_insert]
      by_cases ha : target = a
      · subst ha
        simp [TokenIndex.mem_insert]
      · simp [ha]
    rw [hmem, h.indexed]
    simp only [CarRegistry.give, Table.get?_insert]
    by_cases hd : c = d
    · subst hd
      simp [hcar]
    · simp [hd]
  · simp only [CarRegistry.give, Table.get?_insert] at hfound
    split at hfound
    · next hd =>
      cases hfound
      exact hd ▸ h.filed c car hcar
    · exact h.filed d found hfound
  · simp only [CarRegistry.give, Table.get?_insert]
    rw [if_neg, h.fresh d hd]
    rintro rfl
    rw [h.fresh c hd] at hcar
    cases hcar

theorem Ordered.handed (h : r.Ordered) (hcar : r.cars.get? c = some car) (target : AccountId) :
    (r.handed c car target).Ordered := by
  unfold CarRegistry.handed
  split
  · exact h
  · exact h.give hcar target

theorem Ordered.withCondition (h : r.Ordered) (hcar : r.cars.get? c = some car) (condition : UInt8) :
    (r.withCondition c car condition).Ordered := h.put hcar _ rfl rfl

end CarRegistry

/-! ### Garages -/

namespace Garage

variable {g : Garage} {c : CarId} {p old new : PartId} {t : PartType} {car : Car} {part oldPart newPart : Part}

structure Ordered (g : Garage) : Prop where
  parts : g.parts.Ordered
  cars : g.cars.Ordered

theorem Ordered.attached (h : g.Ordered) (hcar : g.cars.cars.get? c = some car)
    (hpart : g.parts.parts.get? p = some part) : (g.attached c car t p part).Ordered :=
  ⟨h.parts.mark hpart _, h.cars.put hcar _ rfl rfl⟩

theorem Ordered.detached (h : g.Ordered) (hcar : g.cars.cars.get? c = some car)
    (hpart : g.parts.parts.get? p = some part) : (g.detached c car t p part).Ordered :=
  ⟨h.parts.mark hpart _, h.cars.put hcar _ rfl rfl⟩

theorem Ordered.replaced (h : g.Ordered) (hcar : g.cars.cars.get? c = some car)
    (hold : g.parts.parts.get? old = some oldPart) (hnew : g.parts.parts.get? new = some newPart)
    (hne : old ≠ new) : (g.replaced c car t old oldPart new newPart).Ordered := by
  rw [replaced_eq]
  refine (h.detached hcar hold).attached (Table.get?_insert_self _ _ _) ?_
  exact (get?_mark _ _ _ _ _).trans ((if_neg hne).trans hnew)

theorem Ordered.minted (h : g.Ordered) (hroom : g.parts.lastId.toNat + 3 < UInt64.size)
    (hcar : g.cars.nextId = .ok c) (owner : AccountId) (image : String) (specs : PerType PartSpec) :
    (g.minted owner image c specs).Ordered := by
  obtain ⟨hroomCar, rfl⟩ := CarRegistry.nextId_eq_ok_iff.mp hcar
  refine ⟨?_, h.cars.addCar hroomCar owner image _⟩
  change (PartRegistry.addParts owner g.parts (specs.toList.map (·, some _))).2.Ordered
  exact h.parts.addParts owner hroom

section Delivery

variable {P : Garage → Prop} (hdetached : ∀ {g : Garage} {c : CarId} {car : Car} {t : PartType} {p : PartId}
  {part : Part}, P g → g.cars.cars.get? c = some car → g.parts.parts.get? p = some part →
    P (g.detached c car t p part))
include hdetached

theorem keeps_releaseInPlace (c : CarId) (t : PartType) : (releaseInPlace c t).Keeps P := by
  intro g held g' h hrun
  obtain ⟨car, hcar, -, hrun⟩ := releaseInPlace_ok_iff.mp hrun
  cases held with
  | none => exact hrun ▸ h
  | some p =>
    obtain ⟨part, hpart, -, rfl⟩ := hrun
    exact hdetached h hcar hpart

/-- What is kept when a part comes off, and when a part or a car is handed to the buyer, is kept by the
whole delivery. -/
theorem keeps_handOver (plan : PurchasePlan)
    (hpart : ∀ {g : Garage} {p : PartId} {part : Part}, P g → g.parts.parts.get? p = some part →
      P { g with parts := g.parts.handed p part plan.buyer })
    (hcar : ∀ {g : Garage} {c : CarId} {car : Car}, P g → g.cars.cars.get? c = some car →
      P { g with cars := g.cars.handed c car plan.buyer }) : (Market.handOver plan).Keeps P := by
  refine Change.Keeps.bind (Change.keeps_forM fun t _ => ?_) fun _ =>
    Change.Keeps.bind (Change.keeps_forM fun p _ => ?_) fun _ => ?_
  · refine (keeps_releaseInPlace hdetached plan.car t).adaptExcept.bind fun _ => ?_
    rintro g _ g' h hrun
    obtain ⟨-, rfl⟩ := Change.pure_ok_iff.mp hrun
    exact h
  · intro g _ g' h hrun
    obtain ⟨parts, hmove, rfl⟩ := Change.within_ok_iff.mp hrun
    obtain ⟨part, hfound, -, rfl⟩ := PartRegistry.transferInPlace_ok_iff.mp hmove
    exact hpart h hfound
  · intro g _ g' h hrun
    obtain ⟨cars, hmove, rfl⟩ := Change.within_ok_iff.mp hrun
    obtain ⟨car, hfound, -, rfl⟩ := CarRegistry.transferInPlace_ok_iff.mp hmove
    exact hcar h hfound

end Delivery

theorem keeps_ordered_handOver (plan : PurchasePlan) : (Market.handOver plan).Keeps Ordered :=
  keeps_handOver (fun h hcar hpart => h.detached hcar hpart) plan (fun h hpart => ⟨h.parts.handed hpart _, h.cars⟩)
    fun h hcar => ⟨h.parts, h.cars.handed hcar _⟩

end Garage

/-! ### Ledgers -/

namespace Ledger

variable {hash : Hasher} {s s' : Ledger} {operation : Operation} {reply : Reply}

theorem ordered_step (h : s.garage.Ordered) (hstep : Step hash s operation reply s') : s'.garage.Ordered := by
  cases hstep with
  | mintCar _ _ hmint =>
    obtain ⟨arranged, -, hcar, -, hroom, rfl⟩ := Garage.mintInPlace_ok_iff.mp hmint
    exact h.minted hroom hcar _ _ _
  | mintPart _ hmint =>
    obtain ⟨-, hroom, -, rfl⟩ := PartRegistry.mint_eq_ok_iff.mp hmint
    exact ⟨h.parts.addPart hroom _ _ _, h.cars⟩
  | equip hequip =>
    obtain ⟨t, car, part, -, hcar, -, hpart, -, -, -, -, rfl⟩ := Garage.equipInPlace_ok_iff.mp hequip
    exact h.attached hcar hpart
  | unequip hunequip =>
    obtain ⟨t, car, part, hcar, -, -, hpart, -, rfl⟩ := Garage.unequipInPlace_ok_iff.mp hunequip
    exact h.detached hcar hpart
  | replace hreplace =>
    obtain ⟨t, car, oldPart, newPart, hcar, -, -, hold, hmark, hnew, -, hloose, -, rfl⟩ :=
      Garage.replaceInPlace_ok_iff.mp hreplace
    exact h.replaced hcar hold hnew (Garage.ne_of_marked hold hmark hnew hloose)
  | transferPart _ htransfer =>
    obtain ⟨part, hpart, -, -, rfl⟩ := PartRegistry.transferFrom_eq_ok_iff.mp htransfer
    exact ⟨h.parts.handed hpart _, h.cars⟩
  | transferCar _ htransfer =>
    obtain ⟨car, hcar, -, rfl⟩ := CarRegistry.transferFrom_eq_ok_iff.mp htransfer
    exact ⟨h.parts, h.cars.handed hcar _⟩
  | approvePart happrove =>
    obtain ⟨part, -, -, rfl⟩ := PartRegistry.approve_eq_ok_iff.mp happrove
    exact ⟨h.parts.withApprovals _, h.cars⟩
  | approveCar happrove =>
    obtain ⟨car, -, -, rfl⟩ := CarRegistry.approve_eq_ok_iff.mp happrove
    exact ⟨h.parts, h.cars.withApprovals _⟩
  | approveAll => exact ⟨h.parts.withApprovals _, h.cars.withApprovals _⟩
  | buy _ _ _ hsettle => exact Garage.keeps_ordered_handOver _ h (Market.settleInPlace_ok_iff.mp hsettle).1
  | repair _ _ hrepair =>
    obtain ⟨car, condition, hcar, rfl⟩ := Workshop.exists_of_repair hrepair
    exact ⟨h.parts, h.cars.withCondition hcar _⟩
  | wear hwear =>
    obtain ⟨car, condition, hcar, rfl⟩ := Workshop.exists_of_wear hwear
    exact ⟨h.parts, h.cars.withCondition hcar _⟩
  | @setAuthority _ role _ _ => cases role <;> exact h
  | _ => exact h

end Ledger

end Paddock
