import Paddock.Proofs.Arithmetic
import Paddock.Proofs.Privileges

/-! What a car shows of its stats: what its parts come to, and how that goes with its condition. -/
namespace Paddock

/-- The stats of a car, one by one. -/
inductive Gauge where
  | speed
  | maxSpeed
  | acceleration
  | handling
  | drift
  | turn
deriving DecidableEq, Repr

namespace Gauge

variable {gauge : Gauge}

def read : Gauge → DrivingStats → UInt16
  | speed => DrivingStats.speed
  | maxSpeed => DrivingStats.maxSpeed
  | acceleration => DrivingStats.acceleration
  | handling => DrivingStats.handling
  | drift => DrivingStats.drift
  | turn => DrivingStats.turn

/-- What a part gives to one of the stats: engine and transmission to three of them, wheels to the others. -/
def share (gauge : Gauge) (spec : PartSpec) : Nat :=
  match spec.kind, gauge with
  | .engine, speed | .transmission, speed | .wheels, handling => spec.stats.first.toNat
  | .engine, maxSpeed | .transmission, maxSpeed | .wheels, drift => spec.stats.second.toNat
  | .engine, acceleration | .transmission, acceleration | .wheels, turn => spec.stats.third.toNat
  | _, _ => 0

theorem read_mem_fields (gauge : Gauge) : gauge.read ∈ DrivingStats.fields := by
  cases gauge <;> simp [read, DrivingStats.fields]

theorem toNat_contribution (gauge : Gauge) (spec : PartSpec) :
    (gauge.read (DrivingStats.contribution spec)).toNat = gauge.share spec := by
  obtain ⟨kind, stats, image⟩ := spec
  cases kind <;> cases gauge <;> first | exact UInt8.toNat_toUInt16 _ | rfl

end Gauge

/-- Everything that one car shows is at most what another does. -/
structure CarStats.AtMost (a b : CarStats) : Prop where
  condition : a.condition ≤ b.condition
  stats : ∀ gauge : Gauge, gauge.read a.stats ≤ gauge.read b.stats

theorem CarStats.AtMost.refl (a : CarStats) : a.AtMost a := ⟨UInt8.le_refl _, fun _ => UInt16.le_refl _⟩

/-! ### Garages -/

namespace Garage

variable {g g' : Garage} {c : CarId} {car : Car} {gauge : Gauge} {parts : PerType (Option Part)}

/-- The part in a slot of a car. -/
def fitted (g : Garage) (car : Car) (t : PartType) : Option Part := (car.slots.get t).bind g.parts.parts.get?

/-- What the parts of a car give to one of its stats; an empty slot gives nothing. -/
def nominal (g : Garage) (car : Car) (gauge : Gauge) : Nat :=
  (PartType.all.map fun t => ((g.fitted car t).map (gauge.share ·.spec)).getD 0).sum

/-- A car shows the whole part of what its parts give, in proportion to its condition. -/
structure Rated (g : Garage) (car : Car) (shown : CarStats) : Prop where
  image : shown.image = car.image
  condition : shown.condition = car.condition
  exact : ∀ gauge : Gauge, (gauge.read shown.stats).toNat =
    g.nominal car gauge * car.condition.toNat / g.cars.maxCondition.toNat
  bounded : ∀ gauge : Gauge, (gauge.read shown.stats).toNat ≤ g.nominal car gauge
  full : car.condition = g.cars.maxCondition → ∀ gauge : Gauge, (gauge.read shown.stats).toNat = g.nominal car gauge

/-- The part that a slot with this content holds. -/
def look (g : Garage) : Option PartId → Except CarError (Option Part)
  | none => return none
  | some id => some <$> (g.parts.get id : Except PartError Part)

theorem look_eq_ok_iff {slot : Option PartId} {part : Option Part} :
    g.look slot = .ok part ↔ slot.map g.parts.parts.get? = part.map some := by
  cases slot with
  | none => cases part <;> simp [look, pure_eq_ok_iff]
  | some p =>
    change (liftM (g.parts.get p : Except PartError Part) : Except CarError Part).map some = .ok part ↔ _
    cases part <;> simp [map_eq_ok_iff, partsLift_eq_ok_iff, PartRegistry.get_eq_ok_iff]

theorem slotParts_eq_ok_iff : g.slotParts car = .ok parts ↔
    ∀ t, (car.slots.get t).map g.parts.parts.get? = (parts.get t).map some := by
  have hslots : g.slotParts car = do
      return ⟨← g.look car.slots.engine, ← g.look car.slots.transmission, ← g.look car.slots.wheels⟩ := rfl
  simp only [hslots, bind_eq_ok_iff, look_eq_ok_iff, pure_eq_ok_iff]
  constructor
  · rintro ⟨engine, hengine, transmission, htransmission, wheels, hwheels, rfl⟩ t
    cases t with
    | engine => exact hengine
    | transmission => exact htransmission
    | wheels => exact hwheels
  · intro h
    exact ⟨parts.engine, h .engine, parts.transmission, h .transmission, parts.wheels, h .wheels, rfl⟩

theorem Sound.slotParts_eq (hg : g.Sound) (hcar : g.cars.cars.get? c = some car) :
    g.slotParts car = .ok (.ofFn (g.fitted car)) := by
  refine slotParts_eq_ok_iff.mpr fun t => ?_
  rw [PerType.get_ofFn, fitted]
  cases hslot : car.slots.get t with
  | none => rfl
  | some p =>
    obtain ⟨part, hpart, -⟩ := hg.matched.held c car t p hcar hslot
    rw [Option.map_some, Option.bind_some, hpart, Option.map_some]

theorem stats_eq_ok_iff {shown : CarStats} : g.stats c = .ok shown ↔
    ∃ car parts, g.cars.cars.get? c = some car ∧ g.slotParts car = .ok parts ∧ g.carStats car parts = shown := by
  simp only [Garage.stats, bind_eq_ok_iff, CarRegistry.get_eq_ok_iff, pure_eq_ok_iff, ← exists_and_left]

theorem Sound.stats_eq (hg : g.Sound) (hcar : g.cars.cars.get? c = some car) :
    g.stats c = .ok (g.carStats car (.ofFn (g.fitted car))) :=
  stats_eq_ok_iff.mpr ⟨car, _, hcar, hg.slotParts_eq hcar, rfl⟩

theorem toNat_read_carStats (gauge : Gauge) (g : Garage) (car : Car) :
    (gauge.read (g.carStats car (.ofFn (g.fitted car))).stats).toNat = g.nominal car gauge *
      min car.condition.toNat g.cars.maxCondition.toNat / g.cars.maxCondition.toNat := by
  have hsum (f : PartType → Option Part) :
      (((PerType.ofFn f).toList.filterMap id).map fun part => gauge.share part.spec).sum =
        (PartType.all.map fun t => ((f t).map (gauge.share ·.spec)).getD 0).sum := by
    simp only [PerType.ofFn, PerType.toList, PartType.all, List.map_cons, List.map_nil]
    cases f .engine <;> cases f .transmission <;> cases f .wheels <;> simp
  rw [toNat_carStats gauge.read_mem_fields]
  simp only [Gauge.toNat_contribution, hsum, nominal]

theorem rated_carStats (hmax : 0 < g.cars.maxCondition.toNat)
    (hcondition : car.condition.toNat ≤ g.cars.maxCondition.toNat) :
    g.Rated car (g.carStats car (.ofFn (g.fitted car))) := by
  have hexact (gauge : Gauge) := toNat_read_carStats gauge g car
  simp only [Nat.min_eq_left hcondition] at hexact
  refine ⟨rfl, rfl, hexact, fun gauge => ?_, fun hfull gauge => ?_⟩
  · rw [hexact]
    exact Nat.div_le_of_le_mul (Nat.mul_comm g.cars.maxCondition.toNat _ ▸ Nat.mul_le_mul_left _ hcondition)
  · rw [hexact, hfull]
    exact Nat.mul_div_cancel _ hmax

/-- The better the condition of a car, the more it shows. -/
theorem atMost_carStats {low high : UInt8} (h : low ≤ high) (g : Garage) (car : Car) :
    (g.carStats { car with condition := low } (.ofFn (g.fitted car))).AtMost
      (g.carStats { car with condition := high } (.ofFn (g.fitted car))) where
  condition := h
  stats gauge := by
    have hmin : min low.toNat g.cars.maxCondition.toNat ≤ min high.toNat g.cars.maxCondition.toNat := by
      have := UInt8.le_iff_toNat_le.mp h
      omega
    refine UInt16.le_iff_toNat_le.mpr ?_
    rw [toNat_carStats gauge.read_mem_fields, toNat_carStats gauge.read_mem_fields]
    exact Nat.div_le_div_right (Nat.mul_le_mul_left _ hmin)

/-- Two garages with the same cars, where every car of the first shows at most what it shows in the second. -/
def AtMost (g g' : Garage) : Prop :=
  ∀ c, (g.cars.cars.get? c = none ∧ g'.cars.cars.get? c = none) ∨
    ∃ shown shown', g.stats c = .ok shown ∧ g'.stats c = .ok shown' ∧ shown.AtMost shown'

theorem Sound.atMost_refl (hg : g.Sound) : g.AtMost g := by
  intro c
  cases hcar : g.cars.cars.get? c with
  | none => exact .inl ⟨rfl, rfl⟩
  | some car => exact .inr ⟨_, _, hg.stats_eq hcar, hg.stats_eq hcar, .refl _⟩

def withCondition (g : Garage) (c : CarId) (car : Car) (condition : UInt8) : Garage :=
  { g with cars := g.cars.withCondition c car condition }

theorem Sound.atMost_withCondition (hg : g.Sound) (hcar : g.cars.cars.get? c = some car) {low high : UInt8}
    (h : low ≤ high) : (g.withCondition c car low).AtMost (g.withCondition c car high) := by
  intro d
  have hlow := hg.withCondition hcar low
  have hhigh := hg.withCondition hcar high
  -- The car whose condition is another, and all that are left as they were.
  by_cases hd : c = d
  · subst hd
    refine .inr ⟨_, _, hlow.stats_eq (Table.get?_insert_self _ _ _), hhigh.stats_eq (Table.get?_insert_self _ _ _), ?_⟩
    exact atMost_carStats h g car
  · cases hother : g.cars.cars.get? d with
    | none => exact .inl ⟨(Table.get?_insert_ne _ _ hd).trans hother, (Table.get?_insert_ne _ _ hd).trans hother⟩
    | some other =>
      have hlow' := hlow.stats_eq ((Table.get?_insert_ne _ _ hd).trans hother)
      have hhigh' := hhigh.stats_eq ((Table.get?_insert_ne _ _ hd).trans hother)
      exact .inr ⟨_, _, hlow', hhigh', .refl _⟩

theorem withCondition_self (hcar : g.cars.cars.get? c = some car) : g.withCondition c car car.condition = g := by
  have hcars : g.cars.cars.insert c car = g.cars.cars := Table.ext_get? fun d => by
    rw [Table.get?_insert]
    split
    · next hd => rw [← hd, hcar]
    · rfl
  simp only [withCondition, CarRegistry.withCondition, CarRegistry.put, hcars]

/-- Wear, by any amount, leaves nothing of what cars show higher than it was. -/
theorem Sound.atMost_of_wear (hg : g.Sound) {cars : CarRegistry} {amount condition : UInt8}
    (h : g.cars.wear c amount = .ok (condition, cars)) : ({ g with cars } : Garage).AtMost g := by
  obtain ⟨car, hcar, hworn, rfl⟩ := CarRegistry.wear_eq_ok_iff.mp h
  have hlower : condition ≤ car.condition := by
    rw [UInt8.le_iff_toNat_le, ← hworn, toNat_ofNat_of_le (Nat.sub_le _ _)]
    exact Nat.sub_le _ _
  have hmost := hg.atMost_withCondition hcar hlower
  rwa [withCondition_self hcar] at hmost

/-- Repairs, by any amount, leave nothing of what cars show lower than it was. -/
theorem Sound.atMost_of_restore (hg : g.Sound) {cars : CarRegistry} {amount condition : UInt8}
    (hkept : ∀ car, g.cars.cars.get? c = some car → car.condition.toNat ≤ g.cars.maxCondition.toNat)
    (h : g.cars.restore c amount = .ok (condition, cars)) : g.AtMost { g with cars } := by
  obtain ⟨car, hcar, hrestored, rfl⟩ := CarRegistry.restore_eq_ok_iff.mp h
  have hbefore := hkept car hcar
  have hhigher : car.condition ≤ condition := by
    rw [UInt8.le_iff_toNat_le, ← hrestored, toNat_ofNat_of_le (Nat.min_le_right _ _)]
    omega
  have hmost := hg.atMost_withCondition hcar hhigher
  rwa [withCondition_self hcar] at hmost

end Garage

/-! ### Ledgers -/

namespace Ledger

variable {hash : Hasher} {s : Ledger}

/-- A ledger does not begin without any condition, and the greatest never changes. -/
theorem maxCondition_pos_reachable (h : Reachable hash s) : 0 < s.garage.cars.maxCondition.toNat := by
  refine invariant_reachable (P := fun s => 0 < s.garage.cars.maxCondition.toNat) (fun hstart => ?_)
    (fun hs hpos hstep => ?_) h
  · obtain ⟨hvalid, -, rfl⟩ := genesis_eq_ok_iff.mp hstart
    apply Nat.pos_of_ne_zero
    intro hzero
    unfold LedgerConfig.validate at hvalid
    rw [if_pos (UInt8.toNat_inj.mp hzero)] at hvalid
    cases hvalid
  · rwa [(condition_step hs hstep).1]

theorem condition_le_reachable (h : Reachable hash s) {c : CarId} {car : Car}
    (hcar : s.garage.cars.cars.get? c = some car) : car.condition.toNat ≤ s.garage.cars.maxCondition.toNat :=
  maintained_reachable h c car.condition (Garage.condition?_of_get? hcar)

theorem atMost_execute_wear (h : Reachable hash s) (caller : AccountId) (c : CarId) (amount : UInt8) :
    (s.execute hash (.wear caller c amount)).2.garage.AtMost s.garage := by
  have hs := coherent_reachable h
  rcases execute_cases hs (.wear caller c amount) with hsame | ⟨reply, hstep⟩
  · rw [hsame]
    exact hs.sound.atMost_refl
  · generalize hafter : (s.execute hash (.wear caller c amount)).2 = s' at hstep
    cases hstep with
    | wear hwear =>
      obtain ⟨-, hworn⟩ := Workshop.wear_eq_ok_iff.mp hwear
      exact hs.sound.atMost_of_wear hworn

theorem atMost_execute_repair (h : Reachable hash s) (caller : AccountId) (c : CarId) (payment : Amount) :
    s.garage.AtMost (s.execute hash (.repair caller c payment)).2.garage := by
  have hs := coherent_reachable h
  rcases execute_cases hs (.repair caller c payment) with hsame | ⟨reply, hstep⟩
  · rw [hsame]
    exact hs.sound.atMost_refl
  · generalize hafter : (s.execute hash (.repair caller c payment)).2 = s' at hstep
    cases hstep with
    | repair _ _ hrepair =>
      obtain ⟨car, condition, hcar, -, -, hcondition, -, rfl⟩ := Workshop.repair_eq_ok_iff.mp hrepair
      have hrestored := CarRegistry.restore_eq_ok_iff.mpr ⟨car, hcar, hcondition, rfl⟩
      exact hs.sound.atMost_of_restore (fun _ hcar => condition_le_reachable h hcar) hrestored

/-- What the stats of cars have to do with their parts and their condition. -/
structure StatsScaled (hash : Hasher) (s : Ledger) : Prop where
  condition_le : ∀ c car, s.garage.cars.cars.get? c = some car → car.condition ≤ s.garage.cars.maxCondition
  rated : ∀ c car, s.garage.cars.cars.get? c = some car →
    ∃ shown, s.garage.stats c = .ok shown ∧ s.garage.Rated car shown
  wear : ∀ caller c amount, (s.execute hash (.wear caller c amount)).2.garage.AtMost s.garage
  repair : ∀ caller c payment, s.garage.AtMost (s.execute hash (.repair caller c payment)).2.garage
  /-- The amount of a repair is the ledger's own; this is for all others. -/
  restore : ∀ c amount condition cars, s.garage.cars.restore c amount = .ok (condition, cars) →
    s.garage.AtMost { s.garage with cars }

/-- Every car shows the whole part of what its parts give in proportion to its condition, so that the stats go
down with wear and up with repairs. -/
theorem stats_scaled (hs : Reachable hash s) : s.StatsScaled hash where
  condition_le _ _ hcar := UInt8.le_iff_toNat_le.mpr (condition_le_reachable hs hcar)
  rated _ _ hcar := ⟨_, (coherent_reachable hs).sound.stats_eq hcar,
    Garage.rated_carStats (maxCondition_pos_reachable hs) (condition_le_reachable hs hcar)⟩
  wear caller c amount := atMost_execute_wear hs caller c amount
  repair caller c payment := atMost_execute_repair hs caller c payment
  restore _ _ _ _ h :=
    (coherent_reachable hs).sound.atMost_of_restore (fun _ hcar => condition_le_reachable hs hcar) h

namespace Fair

/-- The operator has the car worn out by more than half. -/
def wornOut : Operation := .wear (account 9) ⟨1⟩ 51

end Fair

/-- A sum of six comes to two where less than half of the condition is left. -/
theorem stats_scaled_fair : Reachable Fair.hasher Fair.opened ∧
    Fair.opened.garage.stats ⟨1⟩ = .ok ⟨"", ⟨2, 6, 1, 2, 3, 4⟩, 100⟩ ∧
    (Fair.opened.execute Fair.hasher Fair.wornOut).2.garage.stats ⟨1⟩ = .ok ⟨"", ⟨0, 2, 0, 0, 1, 1⟩, 49⟩ ∧
    (Fair.opened.execute Fair.hasher Fair.wornOut).2.garage.AtMost Fair.opened.garage := by
  have hbefore : Fair.opened.garage.stats ⟨1⟩ = .ok ⟨"", ⟨2, 6, 1, 2, 3, 4⟩, 100⟩ := by decide +kernel
  have hafter : (Fair.opened.execute Fair.hasher Fair.wornOut).2.garage.stats ⟨1⟩ =
      .ok ⟨"", ⟨0, 2, 0, 0, 1, 1⟩, 49⟩ := by decide +kernel
  have hscaled := stats_scaled Fair.reachable_opened
  exact ⟨Fair.reachable_opened, hbefore, hafter, hscaled.wear (Fair.account 9) ⟨1⟩ 51⟩

end Ledger

end Paddock
