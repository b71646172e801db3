import Paddock.Proofs.Acceptance
import Paddock.Proofs.Leaderboard
import Paddock.Proofs.Purchase

/-! Sums, differences and counters, and whether they stay in the range of the numbers they are made with. -/
namespace Paddock

/-! ### Driving stats -/

namespace DrivingStats

variable {field : DrivingStats → UInt16} {specs : List PartSpec} {sum : DrivingStats}
  {condition max : UInt8} {value : UInt16}

def fields : List (DrivingStats → UInt16) := [speed, acceleration, handling, drift, turn, maxSpeed]

theorem field_zero (h : field ∈ fields) : field zero = 0 := by
  simp only [fields, List.mem_cons, List.not_mem_nil, or_false] at h
  rcases h with rfl | rfl | rfl | rfl | rfl | rfl <;> rfl

theorem field_map₂ (h : field ∈ fields) (f : UInt16 → UInt16 → UInt16) (a b : DrivingStats) :
    field (map₂ f a b) = f (field a) (field b) := by
  simp only [fields, List.mem_cons, List.not_mem_nil, or_false] at h
  rcases h with rfl | rfl | rfl | rfl | rfl | rfl <;> rfl

theorem contribution_le (h : field ∈ fields) (spec : PartSpec) : (field (contribution spec)).toNat ≤ 255 := by
  have hbyte (b : UInt8) : b.toUInt16.toNat ≤ 255 := by
    have := b.toNat_lt
    rw [UInt8.toNat_toUInt16]
    omega
  obtain ⟨kind, stats, image⟩ := spec
  simp only [fields, List.mem_cons, List.not_mem_nil, or_false] at h
  rcases h with rfl | rfl | rfl | rfl | rfl | rfl <;> cases kind <;>
    first | exact hbyte _ | exact Nat.zero_le _

/-- A byte for every part: while there is room for all of them, no sum on the way overflows. -/
theorem toNat_foldl (h : field ∈ fields) (hroom : (field sum).toNat + 255 * specs.length < UInt16.size) :
    (field (specs.foldl (fun sum spec => map₂ (· + ·) sum (contribution spec)) sum)).toNat =
      (field sum).toNat + (specs.map fun spec => (field (contribution spec)).toNat).sum := by
  have hsize : UInt16.size = 2 ^ 16 := rfl
  induction specs generalizing sum with
  | nil => rfl
  | cons spec rest ih =>
    have hbyte := contribution_le h spec
    rw [List.length_cons] at hroom
    have hsum : (field (map₂ (· + ·) sum (contribution spec))).toNat =
        (field sum).toNat + (field (contribution spec)).toNat := by
      rw [field_map₂ h, UInt16.toNat_add]
      exact Nat.mod_eq_of_lt (by omega)
    rw [List.foldl_cons, ih (by omega), hsum, List.map_cons, List.sum_cons, Nat.add_assoc]

theorem toNat_nominal (h : field ∈ fields) (slots : PerType (Option PartSpec)) :
    (field (nominal slots)).toNat =
      ((slots.toList.filterMap id).map fun spec => (field (contribution spec)).toNat).sum := by
  have hlength : (slots.toList.filterMap id).length ≤ 3 := List.length_filterMap_le _ _
  have hsize : UInt16.size = 2 ^ 16 := rfl
  have hzero : (field zero).toNat = 0 := by rw [field_zero h]; rfl
  rw [nominal, toNat_foldl h (by omega), hzero, Nat.zero_add]

/-- The product fits 32 bits, and what is left of it after the division 16. -/
theorem toNat_scale (hmax : max ≠ 0) : (scale condition max value).toNat =
    value.toNat * min condition.toNat max.toNat / max.toNat := by
  have hpos : 0 < max.toNat := by
    apply Nat.pos_of_ne_zero
    intro h
    exact hmax (UInt8.toNat_inj.mp h)
  have hcondition : (if max < condition then max else condition).toNat = min condition.toNat max.toNat := by
    by_cases h : max < condition
    · rw [if_pos h]
      exact (Nat.min_eq_right (Nat.le_of_lt (UInt8.lt_iff_toNat_lt.mp h))).symm
    · rw [if_neg h]
      exact (Nat.min_eq_left (Nat.le_of_not_lt fun hlt => h (UInt8.lt_iff_toNat_lt.mpr hlt))).symm
  have hvalue := value.toNat_lt
  have hbyte := max.toNat_lt
  have hfits : value.toNat * min condition.toNat max.toNat < 2 ^ 32 := by
    have hle : value.toNat * min condition.toNat max.toNat ≤ 65535 * 255 :=
      Nat.mul_le_mul (by omega) (by omega)
    omega
  have hresult : value.toNat * min condition.toNat max.toNat / max.toNat ≤ value.toNat := by
    refine Nat.div_le_of_le_mul ?_
    rw [Nat.mul_comm max.toNat]
    exact Nat.mul_le_mul_left _ (Nat.min_le_right _ _)
  simp only [scale, UInt32.toNat_toUInt16, UInt32.toNat_div, UInt32.toNat_mul, UInt16.toNat_toUInt32,
    UInt8.toNat_toUInt32, hcondition]
  rw [Nat.mod_eq_of_lt hfits]
  exact Nat.mod_eq_of_lt (by omega)

theorem toNat_scaled (h : field ∈ fields) (stats : DrivingStats) (condition max : UInt8) :
    (field (stats.scaled condition max)).toNat =
      (field stats).toNat * min condition.toNat max.toNat / max.toNat := by
  unfold scaled
  by_cases hmax : max = 0
  · subst hmax
    rw [if_pos rfl, field_zero h]
    exact (Nat.div_zero _).symm
  · rw [if_neg hmax, map, field_map₂ h, toNat_scale hmax]

end DrivingStats

/-- What a car shows is what its parts add up to, scaled and rounded down once. -/
theorem Garage.toNat_carStats {field : DrivingStats → UInt16} (h : field ∈ DrivingStats.fields) (g : Garage)
    (car : Car) (parts : PerType (Option Part)) :
    (field (g.carStats car parts).stats).toNat =
      ((parts.toList.filterMap id).map fun part => (field (DrivingStats.contribution part.spec)).toNat).sum *
        min car.condition.toNat g.cars.maxCondition.toNat / g.cars.maxCondition.toNat := by
  have hspecs : (parts.map (·.map Part.spec)).toList.filterMap id = (parts.toList.filterMap id).map Part.spec := by
    obtain ⟨engine, transmission, wheels⟩ := parts
    cases engine <;> cases transmission <;> cases wheels <;> rfl
  rw [carStats, DrivingStats.toNat_scaled h, DrivingStats.toNat_nominal h, hspecs, List.map_map]
  rfl

/-! ### Counters and lists -/

theorem toNat_succ_eq_iff {n : UInt64} : (n + 1).toNat = n.toNat + 1 ↔ n.toNat + 1 < UInt64.size := by
  constructor
  · intro h
    have := (n + 1).toNat_lt
    have hsize : UInt64.size = 2 ^ 64 := rfl
    omega
  · exact toNat_next

theorem Leaderboard.nextResult_of_record {l l' : Leaderboard} {cars : CarRegistry} {caller operator : AccountId}
    {c : CarId} {score : UInt64} {improved : Bool}
    (h : l.record cars caller operator c score = .ok (improved, l')) : l'.nextResult = l.nextResult + 1 := by
  obtain ⟨-, -, -, rfl⟩ := record_eq_ok_iff.mp h
  rfl

theorem PartRegistry.numbers_addParts {r : PartRegistry} (owner : AccountId)
    {batch : List (PartSpec × Option CarId)} (hroom : r.lastId.toNat + batch.length < UInt64.size) :
    (addParts owner r batch).1.map (·.number.toNat) = List.range' (r.lastId.toNat + 1) batch.length ∧
      (addParts owner r batch).2.lastId.toNat = r.lastId.toNat + batch.length := by
  induction batch generalizing r with
  | nil => exact ⟨rfl, rfl⟩
  | cons item rest ih =>
    rw [List.length_cons] at hroom
    have hnext : (r.addPart owner item.1 item.2).lastId.toNat = r.lastId.toNat + 1 := toNat_next (by omega)
    obtain ⟨hnumbers, hlast⟩ := ih (r := r.addPart owner item.1 item.2) (by omega)
    rw [hnext] at hnumbers hlast
    constructor
    · simp only [addParts, List.map_cons, hnumbers, List.length_cons, List.range'_succ]
      rw [toNat_next (by omega)]
    · simp only [addParts, hlast, List.length_cons]
      omega

/-- A token that is found has a place, so there is a last one to put there. -/
theorem TokenIndex.size_remove {κ : Type} [Key κ] {t : TokenIndex κ} {id : κ} {i : Nat}
    (h : t.position? id = some i) : i + 1 ≤ t.size ∧ (t.remove id).size + 1 = t.size := by
  have hplace := (t.position_iff id i).mp h
  have hlt : i < t.items.length := (List.getElem?_eq_some_iff.mp hplace).1
  refine ⟨hlt, ?_⟩
  rw [size, items_remove hplace, moveLast, List.length_dropLast, List.length_set]
  change t.items.length - 1 + 1 = t.items.length
  omega

/-! ### The ledger -/

namespace Ledger

variable {hash : Hasher} {s : Ledger}

theorem feeBps_le_iff {m : Market} : m.feeBps ≤ maxFeeBps ↔
    ∀ price fee, m.feeFor price = .ok fee → fee.toNat ≤ price.toNat := by
  constructor
  · intro hbps price fee hfee
    exact fee_le_price hbps hfee
  · intro hfees
    have hbound := m.feeBps.toNat_lt
    have hfee : m.feeFor 10000 = .ok (.ofUInt64 m.feeBps.toUInt64) := by
      refine Market.feeFor_eq_ok_iff.mpr ⟨?_, ?_⟩
      · calc 10000 * m.feeBps.toNat ≤ 10000 * 65535 := Nat.mul_le_mul_left _ (by omega)
          _ < amountBound := by decide
      · change m.feeBps.toUInt64.toNat = 10000 * m.feeBps.toNat / 10000
        rw [UInt16.toNat_toUInt64]
        omega
    have hle := hfees _ _ hfee
    change m.feeBps.toUInt64.toNat ≤ 10000 at hle
    rw [UInt16.toNat_toUInt64] at hle
    exact UInt16.le_iff_toNat_le.mpr hle

/-- The proceeds are what the fee leaves of the price, if it leaves anything. -/
theorem sub_add_eq_iff {x y : Amount} : (x - y).toNat + y.toNat = x.toNat ↔ y.toNat ≤ x.toNat := by
  constructor
  · intro h
    omega
  · exact sub_add_of_le

/-- Everything that a ledger computes without looking whether the result is in range. -/
structure ArithmeticExact (s : Ledger) : Prop where
  refund : ∀ buyer c payment plan, s.market.plan s.garage buyer c payment = .ok plan →
    plan.refund.toNat + plan.price.toNat = payment.toNat
  /-- The proceeds are exact in every plan just where the fee is never more than the price. -/
  proceeds : ∀ buyer c payment plan, s.market.plan s.garage buyer c payment = .ok plan →
    s.market.feeFor plan.price = .ok plan.fee ∧
      (plan.proceeds.toNat + plan.fee.toNat = plan.price.toNat ↔ plan.fee.toNat ≤ plan.price.toNat)
  fee : s.market.feeBps ≤ maxFeeBps ↔
    ∀ price fee, s.market.feeFor price = .ok fee → fee.toNat ≤ price.toNat
  /-- Results are counted while there is a next number for them. -/
  result : ∀ caller c score improved board,
    s.leaderboard.record s.garage.cars caller s.operator c score = .ok (improved, board) →
      (board.nextResult.toNat = s.leaderboard.nextResult.toNat + 1 ↔
        s.leaderboard.nextResult.toNat + 1 < UInt64.size)
  batch : ∀ owner batch ids parts, s.garage.parts.mintBatch owner batch = .ok (ids, parts) →
    ids.map (·.number.toNat) = List.range' (s.garage.parts.lastId.toNat + 1) batch.length ∧
      parts.lastId.toNat = s.garage.parts.lastId.toNat + batch.length
  removal : ∀ {κ : Type} [Key κ] (t : TokenIndex κ) (id : κ) (i : Nat), t.position? id = some i →
    i + 1 ≤ t.size ∧ (t.remove id).size + 1 = t.size
  stats : ∀ field ∈ DrivingStats.fields, ∀ car parts,
    (field (s.garage.carStats car parts).stats).toNat =
      ((parts.toList.filterMap id).map fun part => (field (DrivingStats.contribution part.spec)).toNat).sum *
        min car.condition.toNat s.garage.cars.maxCondition.toNat / s.garage.cars.maxCondition.toNat

/-- The fee rate and the number of the next result are the only things that a ledger could have wrong for
this: with a rate of at most the whole price and a next number left, all is exact. -/
theorem arithmetic_exact (s : Ledger) : s.ArithmeticExact where
  refund buyer c payment plan h := by
    obtain ⟨l, car, fee, -, -, hprice, -, -, -, -, -, rfl⟩ := Market.plan_eq_ok_iff.mp h
    exact sub_add_of_le hprice
  proceeds buyer c payment plan h := by
    obtain ⟨l, car, fee, -, -, -, -, -, -, -, hfee, rfl⟩ := Market.plan_eq_ok_iff.mp h
    exact ⟨hfee, sub_add_eq_iff⟩
  fee := feeBps_le_iff
  result caller c score improved board h := by
    rw [Leaderboard.nextResult_of_record h]
    exact toNat_succ_eq_iff
  batch owner batch ids parts h := by
    obtain ⟨-, hroom, hadd⟩ := PartRegistry.mintBatchInPlace_ok_iff.mp (Change.outcome_ok_iff.mp h)
    have hnumbers := PartRegistry.numbers_addParts owner hroom
    rwa [hadd] at hnumbers
  removal _ _ _ h := TokenIndex.size_remove h
  stats _ hfield car parts := Garage.toNat_carStats hfield s.garage car parts

/-- Whoever takes a snapshot looks neither at the market nor at the leaderboard. -/
theorem ofSnapshot_edited (h : ofSnapshot hash s = .ok s) (market : Market) (leaderboard : Leaderboard) :
    ofSnapshot hash { s with market, leaderboard } = .ok { s with market, leaderboard } := by
  obtain ⟨-, hjournal, haudit⟩ := ofSnapshot_eq_ok_iff.mp h
  exact ofSnapshot_eq_ok_iff.mpr ⟨rfl, hjournal, haudit⟩

namespace Edited

open Fair

/-- The fee is twice the price. -/
def overcharged : Ledger := { opened with market := { opened.market with feeBps := 20000 } }

/-- No number is left for another result. -/
def countedOut : Ledger :=
  { opened with leaderboard := { opened.leaderboard with nextResult := 18446744073709551615 } }

end Edited

open Edited Fair in
/-- Both are taken as snapshots. A fee of 800 is then taken from a price of 400, and the result after the
last number has the number zero. -/
theorem range_left_edited :
    ofSnapshot hasher overcharged = .ok overcharged ∧
    (∃ plan, overcharged.market.plan overcharged.garage (account 2) ⟨1⟩ 500 = .ok plan ∧
      plan.price.toNat = 400 ∧ plan.fee.toNat = 800 ∧ plan.proceeds.toNat = amountBound - 400) ∧
    ofSnapshot hasher countedOut = .ok countedOut ∧
    ∃ board, countedOut.leaderboard.record countedOut.garage.cars (account 9) countedOut.operator ⟨1⟩ 7 =
      .ok (true, board) ∧ board.nextResult = 0 := by
  have hplan : overcharged.market.plan overcharged.garage (account 2) ⟨1⟩ 500 =
      .ok { deal with fee := 800, proceeds := ⟨amountBound - 400, by decide⟩ } := by decide +kernel
  have hrecord : (countedOut.leaderboard.record countedOut.garage.cars (account 9) countedOut.operator ⟨1⟩ 7).map
      (fun answer => (answer.1, answer.2.nextResult)) = .ok (true, 0) := by decide +kernel
  obtain ⟨⟨improved, board⟩, hboard, hanswer⟩ := map_eq_ok_iff.mp hrecord
  obtain ⟨rfl, hnext⟩ := Prod.mk.inj hanswer
  obtain ⟨-, haccepted⟩ := inOrder_iff.mp (inOrder_reachable reachable_opened)
  exact ⟨ofSnapshot_edited haccepted _ _, ⟨_, hplan, rfl, rfl, rfl⟩, ofSnapshot_edited haccepted _ _, board,
    hboard, hnext⟩

end Ledger

end Paddock
