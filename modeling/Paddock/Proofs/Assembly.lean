import Paddock.Proofs.Batch
import Paddock.Proofs.Funds
import Paddock.Proofs.Supply

/-! A car is assembled from one spec for each of its slots, and it does not matter in which order they come. -/
namespace Paddock

/-- One transfer is refused only where its source has too little. -/
theorem Bank.Conserved.exists_prepare_iff {b : Bank} (hb : b.Conserved) (t : Transfer) :
    (∃ p, b.prepare [t] = .ok p) ↔ t.amount.toNat ≤ (b.potBalance t.source).toNat := by
  simp only [prepare_singleton]
  constructor
  · rintro ⟨p, h⟩
    obtain ⟨_, _, hle, -⟩ := prepareOne_eq_ok_iff.mp h
    exact hle
  · intro hle
    have hfit : (b.commit Table.empty).total < amountBound := hb.lt
    exact exists_prepareOne hfit hle

namespace Garage

variable {g g' : Garage} {specs specs' : List PartSpec} {c : CarId} {owner : AccountId} {image : String}

/-- A car is minted where there is a spec for each slot and no stat is too great. That the specs are looked at
once more before the parts are made asks nothing new of them. -/
theorem mintInPlace_ok_iff_oneOfEach : mintInPlace owner image specs g = .ok c g' ↔
    ∃ arranged, OneOfEach specs arranged ∧ (∀ spec ∈ specs, g.parts.Allows spec) ∧ g.cars.nextId = .ok c ∧
      g.parts.lastId.toNat + 3 < UInt64.size ∧ g.minted owner image c arranged = g' := by
  refine mintInPlace_ok_iff.trans (exists_congr fun arranged => ?_)
  rw [validateMint_eq_ok_iff]
  constructor
  · rintro ⟨⟨hone, hallowed, -⟩, hcar, -, hroom, hminted⟩
    exact ⟨hone, hallowed, hcar, hroom, hminted⟩
  · rintro ⟨hone, hallowed, hcar, hroom, hminted⟩
    refine ⟨⟨hone, hallowed, c, hcar⟩, hcar, forM_eq_ok_iff.mpr ?_, hroom, hminted⟩
    intro item hitem
    obtain ⟨spec, hspec, rfl⟩ := List.mem_map.mp hitem
    apply PartRegistry.validateSpec_eq_ok_iff.mpr
    exact hallowed spec (hone.mem_toList_iff.mp hspec)

theorem mintInPlace_of_perm (hperm : specs.Perm specs') (h : mintInPlace owner image specs g = .ok c g') :
    mintInPlace owner image specs' g = .ok c g' := by
  obtain ⟨arranged, hone, hallowed, hrest⟩ := mintInPlace_ok_iff_oneOfEach.mp h
  have hallowed' : ∀ spec ∈ specs', g.parts.Allows spec := fun spec hspec =>
    hallowed spec (hperm.mem_iff.mpr hspec)
  exact mintInPlace_ok_iff_oneOfEach.mpr ⟨arranged, hone.perm hperm, hallowed', hrest⟩

end Garage

namespace Ledger

variable {hash : Hasher} {s s' : Ledger} {reply : Reply} {caller : AccountId} {image : String}
  {specs specs' : List PartSpec} {payment : Amount}

/-- What it takes to mint a car: a spec for each slot and none besides, no stat too great, the price and the
means to pay it, and numbers for the car and its parts. -/
structure Mintable (s : Ledger) (caller : AccountId) (specs : List PartSpec) (payment : Amount) : Prop where
  kinds : ∃ arranged, Garage.OneOfEach specs arranged
  allowed : ∀ spec ∈ specs, s.garage.parts.Allows spec
  price : s.mintPrice.toNat ≤ payment.toNat
  funds : payment.toNat ≤ (s.bank.balance caller).toNat
  car : s.garage.cars.lastId.toNat + 1 < UInt64.size
  parts : s.garage.parts.lastId.toNat + 3 < UInt64.size

theorem mintable_iff (hs : s.Coherent) : s.Mintable caller specs payment ↔
    ∃ reply s', s.execute hash (.mintCar caller ⟨image, specs⟩ payment) = (.ok reply, s') := by
  simp only [execute_eq_ok_iff_step]
  constructor
  · rintro ⟨⟨arranged, hone⟩, hallowed, hprice, hfunds, hroomCar, hroom⟩
    have hcar := CarRegistry.nextId_eq_ok_iff.mpr ⟨hroomCar, rfl⟩
    have hmint : ∃ c garage, Garage.mintInPlace caller image specs s.garage = .ok c garage :=
      ⟨_, _, Garage.mintInPlace_ok_iff_oneOfEach.mpr ⟨arranged, hone, hallowed, hcar, hroom, rfl⟩⟩
    obtain ⟨c, garage, hmint⟩ := hmint
    obtain ⟨prepared, hprepared⟩ :=
      (hs.conserved.exists_prepare_iff ⟨.account caller, .treasury, payment⟩).mpr hfunds
    exact ⟨_, _, .mintCar (Nat.not_lt.mpr hprice) hprepared hmint⟩
  · rintro ⟨reply, s', h⟩
    cases h with
    | mintCar hprice hprepared hmint =>
      obtain ⟨arranged, hone, hallowed, hcar, hroom, -⟩ := Garage.mintInPlace_ok_iff_oneOfEach.mp hmint
      obtain ⟨hroomCar, -⟩ := CarRegistry.nextId_eq_ok_iff.mp hcar
      have hfunds := (hs.conserved.exists_prepare_iff _).mp ⟨_, hprepared⟩
      exact ⟨⟨arranged, hone⟩, hallowed, Nat.not_lt.mp hprice, hfunds, hroomCar, hroom⟩

theorem execute_mintCar_of_perm (hperm : specs.Perm specs')
    (h : s.execute hash (.mintCar caller ⟨image, specs⟩ payment) = (.ok reply, s')) :
    s.execute hash (.mintCar caller ⟨image, specs'⟩ payment) = (.ok reply, s') := by
  apply execute_eq_ok_iff_step.mpr
  cases step_of_execute h with
  | mintCar hprice hfunds hmint => exact .mintCar hprice hfunds (Garage.mintInPlace_of_perm hperm hmint)

/-- The new car `c` of the caller, in full condition, with three new parts made from the specs of their slots and
numbered in the order of the slots. The caller has paid the treasury. -/
structure Assembled (s : Ledger) (caller : AccountId) (image : String) (arranged : PerType PartSpec)
    (payment : Amount) (c : CarId) (slots : PerType (Option PartId)) (s' : Ledger) : Prop where
  number : c.number.toNat = s.garage.cars.lastId.toNat + 1
  new : s.garage.cars.cars.get? c = none
  car : s'.garage.cars.cars.get? c = some ⟨c, caller, image, s.garage.cars.maxCondition, slots⟩
  slots : ∀ t, ∃ p, slots.get t = some p ∧ p.number.toNat = s.garage.parts.lastId.toNat + t.slot + 1 ∧
    s.garage.parts.parts.get? p = none ∧
    s'.garage.parts.parts.get? p = some ⟨p, caller, arranged.get t, some c⟩ ∧ (arranged.get t).kind = t
  paid : (s'.bank.balance caller).toNat + payment.toNat = (s.bank.balance caller).toNat
  earned : s'.bank.treasury.toNat = s.bank.treasury.toNat + payment.toNat
  others : ∀ a, a ≠ caller → s'.bank.balance a = s.bank.balance a

theorem assembled_of_execute (hs : s.Coherent)
    (h : s.execute hash (.mintCar caller ⟨image, specs⟩ payment) = (.ok reply, s')) :
    ∃ c arranged slots, reply = .car c ∧ Garage.OneOfEach specs arranged ∧
      s.Assembled caller image arranged payment c slots s' := by
  obtain ⟨c, rfl, hminted⟩ : ∃ c, reply = .car c ∧ CarMinted hash s [] caller ⟨image, specs⟩ c s' :=
    carMinted_of_execute hs h
  obtain ⟨slots, arranged, harranged, hcar, hparts⟩ := hminted.car
  have hone := Garage.arrange_eq_ok_iff.mp harranged
  have hpot (q : Pot) := potBalance_step (step_of_execute h) q
  simp only [transfers, Operation.issuedTo, Bank.outgoing, Bank.incoming, List.foldr_cons, List.foldr_nil,
    Nat.add_zero] at hpot
  refine ⟨c, arranged, slots, rfl, hone, hminted.number, hminted.unused [] List.prefix_rfl, hcar, fun t => ?_, ?_, ?_,
    fun a ha => ?_⟩
  · obtain ⟨p, hslot, hnumber, hunused, hpart⟩ := hparts t
    exact ⟨p, hslot, hnumber, hunused [] List.prefix_rfl, hpart, (hone.get_mem t).2⟩
  · simpa [Bank.potBalance] using hpot (.account caller)
  · simpa [Bank.potBalance] using hpot .treasury
  · have hkept := hpot (.account a)
    simp only [Bank.potBalance, Pot.account.injEq, Ne.symm ha, reduceCtorEq, if_false, Nat.add_zero] at hkept
    exact Amount.ext hkept

/-- Minting a car takes a spec for each slot, in any order: it succeeds on a list where it succeeds on the list
in another order, with the same answer and the same ledger, and makes for each slot a part of its kind from the
spec of that kind. -/
theorem mint_keyed_by_kind (hs : Reachable hash s) (caller : AccountId) (image : String) (specs : List PartSpec)
    (payment : Amount) :
    (∀ specs', specs.Perm specs' → ∀ reply s',
      s.execute hash (.mintCar caller ⟨image, specs⟩ payment) = (.ok reply, s') ↔
        s.execute hash (.mintCar caller ⟨image, specs'⟩ payment) = (.ok reply, s')) ∧
      ((∃ reply s', s.execute hash (.mintCar caller ⟨image, specs⟩ payment) = (.ok reply, s')) ↔
        s.Mintable caller specs payment) ∧
      ∀ reply s', s.execute hash (.mintCar caller ⟨image, specs⟩ payment) = (.ok reply, s') →
        ∃ c arranged slots, reply = .car c ∧ Garage.OneOfEach specs arranged ∧
          s.Assembled caller image arranged payment c slots s' := by
  have hcoherent := coherent_reachable hs
  refine ⟨fun specs' hperm reply s' => ?_, (mintable_iff hcoherent).symm, fun reply s' h => ?_⟩
  · exact ⟨execute_mintCar_of_perm hperm, execute_mintCar_of_perm hperm.symm⟩
  · exact assembled_of_execute hcoherent h

namespace Fair

def sorted : PerType PartSpec :=
  ⟨⟨.engine, ⟨1, 2, 3⟩, "e"⟩, ⟨.transmission, ⟨4, 5, 6⟩, "t"⟩, ⟨.wheels, ⟨7, 8, 9⟩, "w"⟩⟩

/-- Wheels first. -/
def unsorted : List PartSpec := [sorted.wheels, sorted.engine, sorted.transmission]

theorem mintable_unsorted : opened.Mintable (account 2) unsorted 500 where
  kinds := ⟨sorted, fun t => by cases t <;> rfl⟩
  allowed := by
    unfold PartRegistry.Allows
    decide +kernel
  price := by decide +kernel
  funds := by decide +kernel
  car := by decide +kernel
  parts := by decide +kernel

end Fair

/-- Account 2 pays more than it has to for a car. -/
theorem mint_keyed_by_kind_fair : Reachable Fair.hasher Fair.opened ∧
    ∃ c s', Fair.opened.execute Fair.hasher (.mintCar (Fair.account 2) ⟨"", Fair.unsorted⟩ 500) = (.ok (.car c), s') ∧
      Fair.opened.execute Fair.hasher (.mintCar (Fair.account 2) ⟨"", Fair.sorted.toList⟩ 500) = (.ok (.car c), s') ∧
      ∃ arranged slots, Garage.OneOfEach Fair.unsorted arranged ∧
        Fair.opened.Assembled (Fair.account 2) "" arranged 500 c slots s' := by
  obtain ⟨hperm, hiff, hassembled⟩ :=
    mint_keyed_by_kind Fair.reachable_opened (Fair.account 2) "" Fair.unsorted 500
  obtain ⟨reply, s', h⟩ := hiff.mpr Fair.mintable_unsorted
  obtain ⟨c, arranged, slots, rfl, hone, hdone⟩ := hassembled reply s' h
  have hsorted : Fair.unsorted.Perm Fair.sorted.toList := by decide
  exact ⟨Fair.reachable_opened, c, s', h, (hperm _ hsorted _ _).mp h, arranged, slots, hone, hdone⟩

end Ledger

end Paddock
