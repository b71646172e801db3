import Paddock.Garage
import Paddock.Proofs.Change
import Paddock.Workshop

/-! When the operations of the two registries succeed and what they then leave behind. Those that fail leave no
trace. -/
namespace Paddock

open Change

variable {α : Type} {a : α}

/-- A number that is not the last there can be has a next one. -/
theorem toNat_next {n : UInt64} (hroom : n.toNat + 1 < UInt64.size) : (n + 1).toNat = n.toNat + 1 := by
  have hsize : UInt64.size = 2 ^ 64 := rfl
  rw [UInt64.toNat_add, UInt64.toNat_one]
  omega

theorem partsLift_eq_ok_iff {x : Except PartError α} :
    (liftM x : Except CarError α) = .ok a ↔ x = .ok a :=
  mapError_eq_ok_iff

theorem Approvals.isAuthorized_self {κ : Type} [Key κ] (approvals : Approvals κ) (owner : AccountId) (id : κ) :
    approvals.isAuthorized owner id owner = true := by
  simp [isAuthorized]

namespace PartRegistry

variable {r r' : PartRegistry} {id : PartId} {part : Part} {owner source target caller : AccountId}
  {car : Option CarId} {spec : PartSpec}

theorem get_eq_ok_iff : r.get id = .ok part ↔ r.parts.get? id = some part := by
  unfold get
  cases r.parts.get? id <;> simp

theorem ownerOf_eq_ok_iff :
    r.ownerOf id = .ok owner ↔ ∃ part, r.parts.get? id = some part ∧ part.owner = owner := by
  simp only [ownerOf, map_eq_ok_iff, get_eq_ok_iff]

theorem kindOf_eq_ok_iff {kind : PartType} :
    r.kindOf id = .ok kind ↔ ∃ part, r.parts.get? id = some part ∧ part.kind = kind := by
  simp only [kindOf, map_eq_ok_iff, get_eq_ok_iff]

theorem isAuthorized_eq_ok_iff {account : AccountId} {b : Bool} :
    r.isAuthorized id account = .ok b ↔
      ∃ part, r.parts.get? id = some part ∧ r.approvals.isAuthorized part.owner id account = b := by
  simp only [isAuthorized, bind_eq_ok_iff, get_eq_ok_iff, pure_eq_ok_iff]

theorem ensureOwner_eq_ok_iff :
    r.ensureOwner id owner = .ok part ↔ r.parts.get? id = some part ∧ part.owner = owner := by
  simp only [ensureOwner, bind_eq_ok_iff, get_eq_ok_iff]
  constructor
  · rintro ⟨found, hfound, h⟩
    split at h
    · cases h; exact ⟨hfound, ‹_›⟩
    · cases h
  · rintro ⟨hpart, rfl⟩
    exact ⟨part, hpart, if_pos rfl⟩

/-- A mark changes from loose to equipped or back, never from one car to another. -/
theorem setEquippedInPlace_ok_iff {u : Unit} :
    setEquippedInPlace id car r = .ok u r' ↔
      ∃ part, r.parts.get? id = some part ∧ part.isEquipped ≠ car.isSome ∧ r.mark id part car = r' := by
  simp only [setEquippedInPlace, check_bind_ok_iff, get_eq_ok_iff, Part.isEquipped]
  refine exists_congr fun part => and_congr_right fun _ => ?_
  cases part.equippedTo <;> cases car <;> simp

/-- A transfer from an owner to itself does nothing. -/
def handed (r : PartRegistry) (id : PartId) (part : Part) (target : AccountId) : PartRegistry :=
  if part.owner = target then r else r.give id part target

theorem transferInPlace_ok_iff {u : Unit} :
    transferInPlace id source target r = .ok u r' ↔
      ∃ part, r.parts.get? id = some part ∧ part.owner = source ∧ r.handed id part target = r' := by
  simp only [transferInPlace, check_bind_ok_iff, ensureOwner_eq_ok_iff, handed, and_assoc]
  refine exists_congr fun part => and_congr_right fun _ => and_congr_right ?_
  rintro rfl
  split <;> simp

theorem checkTransfer_eq_ok_iff :
    r.checkTransfer caller id = .ok owner ↔
      ∃ part, r.parts.get? id = some part ∧ r.approvals.isAuthorized part.owner id caller = true ∧
        part.equippedTo = none ∧ part.owner = owner := by
  simp only [checkTransfer, bind_eq_ok_iff, get_eq_ok_iff, guard_eq_ok_iff, pure_eq_ok_iff,
    Bool.not_eq_true', Bool.not_eq_false]
  simp [Part.isEquipped]

theorem transferFrom_eq_ok_iff :
    r.transferFrom caller id target = .ok r' ↔
      ∃ part, r.parts.get? id = some part ∧ r.approvals.isAuthorized part.owner id caller = true ∧
        part.equippedTo = none ∧ r.handed id part target = r' := by
  refine outcome_state_iff.trans ?_
  simp only [transferFromInPlace, check_bind_ok_iff, checkTransfer_eq_ok_iff, transferInPlace_ok_iff]
  constructor
  · rintro ⟨_, ⟨part, hpart, hmay, hloose, rfl⟩, found, hfound, -, rfl⟩
    obtain rfl := Option.some.inj (hpart.symm.trans hfound)
    exact ⟨part, hpart, hmay, hloose, rfl⟩
  · rintro ⟨part, hpart, hmay, hloose, rfl⟩
    exact ⟨part.owner, ⟨part, hpart, hmay, hloose, rfl⟩, part, hpart, rfl, rfl⟩

theorem checkApprove_eq_ok_iff {u : Unit} :
    r.checkApprove caller id = .ok u ↔
      ∃ part, r.parts.get? id = some part ∧
        (caller = part.owner ∨ r.approvals.isOperator part.owner caller = true) := by
  simp only [checkApprove, bind_eq_ok_iff, get_eq_ok_iff]
  refine exists_congr fun part => and_congr_right fun _ => ?_
  split <;> simp_all

theorem approve_eq_ok_iff {account : Option AccountId} :
    r.approve caller id account = .ok r' ↔
      ∃ part, r.parts.get? id = some part ∧
        (caller = part.owner ∨ r.approvals.isOperator part.owner caller = true) ∧
        { r with approvals := r.approvals.approve id account } = r' := by
  refine outcome_state_iff.trans ?_
  simp only [approveInPlace, check_bind_ok_iff, modify_ok_iff, checkApprove_eq_ok_iff]
  constructor
  · rintro ⟨_, ⟨part, hpart, hmay⟩, rfl⟩
    exact ⟨part, hpart, hmay, rfl⟩
  · rintro ⟨part, hpart, hmay, rfl⟩
    exact ⟨(), ⟨part, hpart, hmay⟩, rfl⟩

theorem nextId_eq_ok_iff {next : PartId} :
    r.nextId = .ok next ↔ r.lastId.toNat + 1 < UInt64.size ∧ next = ⟨r.lastId + 1⟩ := by
  unfold nextId
  split
  · next hroom => simp [hroom, eq_comm]
  · next hroom => simp [hroom]

/-- No stat of the spec is too great. -/
def Allows (r : PartRegistry) (spec : PartSpec) : Prop := ∀ value ∈ spec.stats.toList, value ≤ r.maxStat

theorem validateSpec_eq_ok_iff : r.validateSpec spec = .ok () ↔ r.Allows spec := by
  unfold validateSpec Allows
  cases hfound : spec.stats.toList.find? (r.maxStat < ·) with
  | none =>
    have hnone := List.find?_eq_none.mp hfound
    simp only [true_iff]
    intro value hvalue
    simpa using hnone value hvalue
  | some value =>
    have hmem := List.mem_of_find?_eq_some hfound
    have hgreat := List.find?_some hfound
    simp only [reduceCtorEq, false_iff]
    intro h
    exact absurd (h value hmem) (by simpa using hgreat)

theorem checkRoom_eq_ok_iff {count : Nat} {u : Unit} :
    r.checkRoom count = .ok u ↔ r.lastId.toNat + count < UInt64.size := by
  unfold checkRoom
  split <;> simp_all

/-- A batch is minted where every spec is valid and there are numbers enough. -/
theorem mintBatchInPlace_ok_iff {batch : List (PartSpec × Option CarId)} {ids : List PartId} :
    mintBatchInPlace owner batch r = .ok ids r' ↔
      (batch.forM fun item => r.validateSpec item.1) = .ok () ∧
        r.lastId.toNat + batch.length < UInt64.size ∧ addParts owner r batch = (ids, r') := by
  simp only [mintBatchInPlace, check_bind_ok_iff, modifyGet_ok_iff, checkRoom_eq_ok_iff]
  constructor
  · rintro ⟨_, hvalid, _, hroom, h⟩
    exact ⟨hvalid, hroom, h⟩
  · rintro ⟨hvalid, hroom, h⟩
    exact ⟨(), hvalid, (), hroom, h⟩

theorem mint_eq_ok_iff :
    r.mint owner spec car = .ok (id, r') ↔
      r.validateSpec spec = .ok () ∧ r.lastId.toNat + 1 < UInt64.size ∧
        id = ⟨r.lastId + 1⟩ ∧ r' = r.addPart owner spec car := by
  refine outcome_ok_iff.trans ?_
  simp only [mintInPlace, bind_ok_iff, mintBatchInPlace_ok_iff, addParts, List.length_singleton]
  constructor
  · rintro ⟨ids, r'', ⟨hvalid, hroom, heq⟩, h⟩
    obtain ⟨rfl, rfl⟩ := Prod.mk.inj heq
    cases h
    refine ⟨?_, hroom, rfl, rfl⟩
    simpa [bind_eq_ok_iff, pure_eq_ok_iff] using hvalid
  · rintro ⟨hvalid, hroom, rfl, rfl⟩
    refine ⟨_, _, ⟨?_, hroom, rfl⟩, rfl⟩
    simpa [bind_eq_ok_iff, pure_eq_ok_iff] using hvalid

/-! ### Parts after a failure -/

theorem clean_mintBatch (owner : AccountId) (batch : List (PartSpec × Option CarId)) (r : PartRegistry) :
    (mintBatchInPlace owner batch).Clean r :=
  clean_check_bind fun _ _ => clean_check_bind fun _ _ => (succeeds_modifyGet _).clean

/-- A batch of one part gives one number, so nothing fails after the part was made. -/
theorem clean_mint (owner : AccountId) (spec : PartSpec) (car : Option CarId) (r : PartRegistry) :
    (mintInPlace owner spec car).Clean r := by
  refine (clean_mintBatch owner [(spec, car)] r).bind fun ids r' hbatch => ?_
  obtain ⟨-, -, hadd⟩ := mintBatchInPlace_ok_iff.mp hbatch
  obtain ⟨rfl, -⟩ := Prod.mk.inj hadd
  exact succeeds_pure _

theorem clean_setEquipped (id : PartId) (car : Option CarId) (r : PartRegistry) :
    (setEquippedInPlace id car).Clean r := by
  refine clean_check_bind fun part _ => ?_
  split
  · exact clean_throw _
  · exact clean_throw _
  · exact (succeeds_modify _).clean

theorem clean_transfer (id : PartId) (source target : AccountId) (r : PartRegistry) :
    (transferInPlace id source target).Clean r := by
  refine clean_check_bind fun part _ => ?_
  split
  · exact (succeeds_pure _).clean
  · exact (succeeds_modify _).clean

theorem clean_transferFrom (caller : AccountId) (id : PartId) (target : AccountId) (r : PartRegistry) :
    (transferFromInPlace caller id target).Clean r :=
  clean_check_bind fun owner _ => clean_transfer id owner target r

theorem clean_approve (caller : AccountId) (id : PartId) (account : Option AccountId) (r : PartRegistry) :
    (approveInPlace caller id account).Clean r :=
  clean_check_bind fun _ _ => (succeeds_modify _).clean

end PartRegistry

namespace CarRegistry

variable {r r' : CarRegistry} {id : CarId} {car : Car} {owner source target caller : AccountId}

theorem get_eq_ok_iff : r.get id = .ok car ↔ r.cars.get? id = some car := by
  unfold get
  cases r.cars.get? id <;> simp

theorem ownerOf_eq_ok_iff :
    r.ownerOf id = .ok owner ↔ ∃ car, r.cars.get? id = some car ∧ car.owner = owner := by
  simp only [ownerOf, map_eq_ok_iff, get_eq_ok_iff]

theorem isAuthorized_eq_ok_iff {account : AccountId} {b : Bool} :
    r.isAuthorized id account = .ok b ↔
      ∃ car, r.cars.get? id = some car ∧ r.approvals.isAuthorized car.owner id account = b := by
  simp only [isAuthorized, bind_eq_ok_iff, get_eq_ok_iff, pure_eq_ok_iff]

theorem ensureOwner_eq_ok_iff :
    r.ensureOwner id owner = .ok car ↔ r.cars.get? id = some car ∧ car.owner = owner := by
  simp only [ensureOwner, bind_eq_ok_iff, get_eq_ok_iff]
  constructor
  · rintro ⟨found, hfound, h⟩
    split at h
    · cases h; exact ⟨hfound, ‹_›⟩
    · cases h
  · rintro ⟨hcar, rfl⟩
    exact ⟨car, hcar, if_pos rfl⟩

theorem nextId_eq_ok_iff {next : CarId} :
    r.nextId = .ok next ↔ r.lastId.toNat + 1 < UInt64.size ∧ next = ⟨r.lastId + 1⟩ := by
  unfold nextId
  split
  · next hroom => simp [hroom, eq_comm]
  · next hroom => simp [hroom]

/-- A transfer from an owner to itself does nothing. -/
def handed (r : CarRegistry) (id : CarId) (car : Car) (target : AccountId) : CarRegistry :=
  if car.owner = target then r else r.give id car target

theorem transferInPlace_ok_iff {u : Unit} :
    transferInPlace id source target r = .ok u r' ↔
      ∃ car, r.cars.get? id = some car ∧ car.owner = source ∧ r.handed id car target = r' := by
  simp only [transferInPlace, check_bind_ok_iff, ensureOwner_eq_ok_iff, handed, and_assoc]
  refine exists_congr fun car => and_congr_right fun _ => and_congr_right ?_
  rintro rfl
  split <;> simp

theorem checkTransfer_eq_ok_iff :
    r.checkTransfer caller id = .ok owner ↔
      ∃ car, r.cars.get? id = some car ∧ r.approvals.isAuthorized car.owner id caller = true ∧
        car.owner = owner := by
  simp only [checkTransfer, bind_eq_ok_iff, get_eq_ok_iff]
  refine exists_congr fun car => and_congr_right fun _ => ?_
  split <;> simp_all

theorem transferFrom_eq_ok_iff :
    r.transferFrom caller id target = .ok r' ↔
      ∃ car, r.cars.get? id = some car ∧ r.approvals.isAuthorized car.owner id caller = true ∧
        r.handed id car target = r' := by
  refine outcome_state_iff.trans ?_
  simp only [transferFromInPlace, check_bind_ok_iff, checkTransfer_eq_ok_iff, transferInPlace_ok_iff]
  constructor
  · rintro ⟨_, ⟨car, hcar, hmay, rfl⟩, found, hfound, -, rfl⟩
    obtain rfl := Option.some.inj (hcar.symm.trans hfound)
    exact ⟨car, hcar, hmay, rfl⟩
  · rintro ⟨car, hcar, hmay, rfl⟩
    exact ⟨car.owner, ⟨car, hcar, hmay, rfl⟩, car, hcar, rfl, rfl⟩

theorem checkApprove_eq_ok_iff {u : Unit} :
    r.checkApprove caller id = .ok u ↔
      ∃ car, r.cars.get? id = some car ∧
        (caller = car.owner ∨ r.approvals.isOperator car.owner caller = true) := by
  simp only [checkApprove, bind_eq_ok_iff, get_eq_ok_iff]
  refine exists_congr fun car => and_congr_right fun _ => ?_
  split <;> simp_all

theorem approve_eq_ok_iff {account : Option AccountId} :
    r.approve caller id account = .ok r' ↔
      ∃ car, r.cars.get? id = some car ∧
        (caller = car.owner ∨ r.approvals.isOperator car.owner caller = true) ∧
        { r with approvals := r.approvals.approve id account } = r' := by
  refine outcome_state_iff.trans ?_
  simp only [approveInPlace, check_bind_ok_iff, modify_ok_iff, checkApprove_eq_ok_iff]
  constructor
  · rintro ⟨_, ⟨car, hcar, hmay⟩, rfl⟩
    exact ⟨car, hcar, hmay, rfl⟩
  · rintro ⟨car, hcar, hmay, rfl⟩
    exact ⟨(), ⟨car, hcar, hmay⟩, rfl⟩

/-- What a new record says as the old one did, it says of every car. -/
theorem map_put (f : Car → α) (hcar : r.cars.get? id = some car) (car' : Car) (h : f car' = f car)
    (other : CarId) : ((r.put id car').cars.get? other).map f = (r.cars.get? other).map f := by
  rw [put, Table.get?_insert]
  split
  · next hid => rw [← hid, hcar]; exact congrArg some h
  · rfl

/-- Handing a car over changes its owner and nothing else about it. -/
theorem map_handed (f : Car → α) (hcar : r.cars.get? id = some car) (target : AccountId)
    (h : f { car with owner := target } = f car) (other : CarId) :
    ((r.handed id car target).cars.get? other).map f = (r.cars.get? other).map f := by
  unfold handed
  split
  · rfl
  · exact map_put f hcar _ h other

/-- Wear and repairs change the condition of a car and nothing else. -/
def withCondition (r : CarRegistry) (id : CarId) (car : Car) (condition : UInt8) : CarRegistry :=
  r.put id { car with condition }

theorem wear_eq_ok_iff {amount condition : UInt8} : r.wear id amount = .ok (condition, r') ↔
    ∃ car, r.cars.get? id = some car ∧ UInt8.ofNat (car.condition.toNat - amount.toNat) = condition ∧
      r.withCondition id car condition = r' := by
  refine outcome_ok_iff.trans ?_
  simp only [wearInPlace, check_bind_ok_iff, modify_bind_ok_iff, pure_ok_iff, get_eq_ok_iff]
  refine exists_congr fun car => and_congr_right fun _ => and_congr_right ?_
  rintro rfl
  rfl

theorem restoreInPlace_ok_iff {amount condition : UInt8} : restoreInPlace id amount r = .ok condition r' ↔
    ∃ car, r.cars.get? id = some car ∧
      UInt8.ofNat (min (car.condition.toNat + amount.toNat) r.maxCondition.toNat) = condition ∧
      r.withCondition id car condition = r' := by
  simp only [restoreInPlace, check_bind_ok_iff, modifyGet_ok_iff, get_eq_ok_iff, Prod.mk.injEq]
  refine exists_congr fun car => and_congr_right fun _ => and_congr_right ?_
  rintro rfl
  rfl

theorem restore_eq_ok_iff {amount condition : UInt8} : r.restore id amount = .ok (condition, r') ↔
    ∃ car, r.cars.get? id = some car ∧
      UInt8.ofNat (min (car.condition.toNat + amount.toNat) r.maxCondition.toNat) = condition ∧
      r.withCondition id car condition = r' :=
  outcome_ok_iff.trans restoreInPlace_ok_iff

/-! ### Cars after a failure -/

theorem clean_transfer (id : CarId) (source target : AccountId) (r : CarRegistry) :
    (transferInPlace id source target).Clean r := by
  refine clean_check_bind fun car _ => ?_
  split
  · exact (succeeds_pure _).clean
  · exact (succeeds_modify _).clean

theorem clean_transferFrom (caller : AccountId) (id : CarId) (target : AccountId) (r : CarRegistry) :
    (transferFromInPlace caller id target).Clean r :=
  clean_check_bind fun owner _ => clean_transfer id owner target r

theorem clean_approve (caller : AccountId) (id : CarId) (account : Option AccountId) (r : CarRegistry) :
    (approveInPlace caller id account).Clean r :=
  clean_check_bind fun _ _ => (succeeds_modify _).clean

theorem clean_wear (id : CarId) (amount : UInt8) (r : CarRegistry) : (wearInPlace id amount).Clean r :=
  clean_check_bind fun _ _ => ((succeeds_modify _).bind fun _ _ _ => succeeds_pure _).clean

theorem clean_restore (id : CarId) (amount : UInt8) (r : CarRegistry) : (restoreInPlace id amount).Clean r :=
  clean_check_bind fun _ _ => (succeeds_modifyGet _).clean

end CarRegistry

namespace Workshop

variable {w : Workshop} {r r' : CarRegistry} {caller operator : AccountId} {id : CarId}

theorem carsLift_eq_ok_iff {x : Except CarError α} :
    (liftM x : Except WorkshopError α) = .ok a ↔ x = .ok a :=
  mapError_eq_ok_iff

theorem checkRepair_eq_ok_iff {payment charged : Amount} :
    w.checkRepair r caller id payment = .ok charged ↔
      ∃ car, r.cars.get? id = some car ∧ car.owner = caller ∧ ¬ payment < w.repairPrice ∧
        payment = charged := by
  simp only [checkRepair, throw_bind, guard_eq_ok_iff, bind_eq_ok_iff, carsLift_eq_ok_iff, pure_eq_ok_iff,
    CarRegistry.get_eq_ok_iff, ne_eq, Decidable.not_not]

theorem isAuthorized_iff : w.isAuthorized caller operator = true ↔ caller = operator ∨ w.authority = some caller := by
  simp only [isAuthorized, Bool.or_eq_true, beq_iff_eq]

theorem repair_eq_ok_iff {payment : Amount} {receipt : RepairReceipt} :
    w.repair r caller id payment = .ok (receipt, r') ↔
      ∃ car condition, r.cars.get? id = some car ∧ car.owner = caller ∧ ¬ payment < w.repairPrice ∧
        UInt8.ofNat (min (car.condition.toNat + w.repairAmount.toNat) r.maxCondition.toNat) = condition ∧
        receipt = ⟨id, car.condition, condition, payment⟩ ∧ r.withCondition id car condition = r' := by
  refine outcome_ok_iff.trans ?_
  simp only [repairInPlace, check_bind_ok_iff, carsLift_eq_ok_iff, checkRepair_eq_ok_iff,
    CarRegistry.get_eq_ok_iff]
  simp only [bind_ok_iff, adaptExcept_ok_iff, pure_ok_iff, CarRegistry.restoreInPlace_ok_iff]
  constructor
  · rintro ⟨_, ⟨car, hcar, howner, hprice, rfl⟩, car', hcar', condition, _, ⟨car'', hcar'', hcondition, rfl⟩,
      rfl, rfl⟩
    obtain rfl := Option.some.inj (hcar.symm.trans hcar')
    obtain rfl := Option.some.inj (hcar.symm.trans hcar'')
    exact ⟨car, condition, hcar, howner, hprice, hcondition, rfl, rfl⟩
  · rintro ⟨car, condition, hcar, howner, hprice, hcondition, rfl, rfl⟩
    exact ⟨payment, ⟨car, hcar, howner, hprice, rfl⟩, car, hcar, condition, _, ⟨car, hcar, hcondition, rfl⟩, rfl, rfl⟩

theorem wear_eq_ok_iff {amount condition : UInt8} :
    w.wear r caller operator id amount = .ok (condition, r') ↔
      (caller = operator ∨ w.authority = some caller) ∧ r.wear id amount = .ok (condition, r') := by
  simp only [wear, CarRegistry.wear, outcome_ok_iff]
  unfold wearInPlace
  split
  · next hmay => simp only [isAuthorized_iff.mp hmay, adaptExcept_ok_iff, true_and]
  · next hmay =>
    rw [isAuthorized_iff] at hmay
    simp only [hmay, Change.throw_ne_ok, false_and]

theorem exists_of_repair {payment : Amount} {receipt : RepairReceipt}
    (h : w.repair r caller id payment = .ok (receipt, r')) :
    ∃ car condition, r.cars.get? id = some car ∧ r' = r.withCondition id car condition := by
  obtain ⟨car, condition, hcar, -, -, -, -, rfl⟩ := repair_eq_ok_iff.mp h
  exact ⟨car, condition, hcar, rfl⟩

theorem exists_of_wear {amount condition : UInt8}
    (h : w.wear r caller operator id amount = .ok (condition, r')) :
    ∃ car condition, r.cars.get? id = some car ∧ r' = r.withCondition id car condition := by
  obtain ⟨car, hcar, -, rfl⟩ := CarRegistry.wear_eq_ok_iff.mp (wear_eq_ok_iff.mp h).2
  exact ⟨car, condition, hcar, rfl⟩

/-! ### After a failure -/

theorem clean_repair (w : Workshop) (caller : AccountId) (id : CarId) (payment : Amount) (r : CarRegistry) :
    (w.repairInPlace caller id payment).Clean r := by
  refine clean_check_bind fun charged _ => clean_check_bind fun car _ => ?_
  exact (CarRegistry.clean_restore id w.repairAmount r).adaptExcept.bind fun _ _ _ => succeeds_pure _

theorem clean_wear (w : Workshop) (caller operator : AccountId) (id : CarId) (amount : UInt8)
    (r : CarRegistry) : (w.wearInPlace caller operator id amount).Clean r := by
  unfold wearInPlace
  split
  · exact (CarRegistry.clean_wear id amount r).adaptExcept
  · exact clean_throw _

end Workshop

end Paddock
