import Mathlib.Data.List.Forall2
import Paddock.Proofs.Acceptance
import Paddock.Proofs.Refitting
import Paddock.Proofs.Stats

/-! What there is to ask of a ledger: every question about something that there is has an answer, and the answer
leaves nothing out. -/
namespace Paddock

section Lists

variable {α β ε : Type} {f : α → Option β} {answer : α → Except ε β} {R : α → β → Prop}

/-- What a filter lets through, one by one. -/
theorem forall₂_filterMap (hf : ∀ a b, f a = some b → R a b) (l : List α) :
    List.Forall₂ R (l.filter fun a => (f a).isSome) (l.filterMap f) := by
  induction l with
  | nil => exact .nil
  | cons a rest ih =>
    cases ha : f a with
    | none => simpa [ha] using ih
    | some b => simpa [ha] using ⟨hf a b ha, ih⟩

/-- Where every question has an answer, asking them one after the other gives all answers. -/
theorem exists_mapM_eq_ok {l : List α} (h : ∀ a ∈ l, ∃ b, answer a = .ok b) :
    ∃ bs, l.mapM answer = .ok bs ∧ List.Forall₂ (fun a b => answer a = .ok b) l bs := by
  induction l with
  | nil => exact ⟨[], rfl, .nil⟩
  | cons a rest ih =>
    obtain ⟨b, hb⟩ := h a List.mem_cons_self
    obtain ⟨bs, hbs, hall⟩ := ih fun x hx => h x (List.mem_cons_of_mem a hx)
    refine ⟨b :: bs, ?_, .cons hb hall⟩
    rw [List.mapM_cons, hb, hbs]
    rfl

end Lists

/-! ### Owners -/

namespace CarRegistry

variable {r : CarRegistry} {a : AccountId} {c : CarId}

theorem mem_ownerCars : c ∈ r.ownerCars a ↔ c ∈ (r.carsOf a).items :=
  (List.mergeSort_perm _ _).mem_iff

theorem pairwise_ownerCars (r : CarRegistry) (a : AccountId) :
    (r.ownerCars a).Pairwise fun c d => c.number < d.number := by
  have hsorted : (r.ownerCars a).Pairwise fun c d => decide (c.number ≤ d.number) = true := by
    refine List.pairwise_mergeSort (fun c d e hcd hde => ?_) (fun c d => ?_) _
    · exact decide_eq_true (UInt64.le_trans (of_decide_eq_true hcd) (of_decide_eq_true hde))
    · simpa using UInt64.le_total c.number d.number
  have hnodup : (r.ownerCars a).Pairwise (· ≠ ·) :=
    (List.mergeSort_perm _ _).nodup_iff.mpr (TokenIndex.nodup_items _)
  refine (hsorted.and hnodup).imp fun {c d} h => ?_
  exact UInt64.lt_of_le_of_ne (of_decide_eq_true h.1) fun hnumber => h.2 (congrArg CarId.mk hnumber)

end CarRegistry

namespace PartRegistry

variable {r : PartRegistry} {a : AccountId} {ids : List PartId} {which : Part → Prop}

/-- The record of every number in turn. -/
def Recorded (r : PartRegistry) (ids : List PartId) (parts : List Part) : Prop :=
  List.Forall₂ (fun p part => r.parts.get? p = some part) ids parts

/-- A number that names a part has a record, so none is passed over. -/
theorem Names.recorded (h : r.Names a which ids) : r.Recorded ids (r.records ids) := by
  have hall : ids.filter (fun p => (r.parts.get? p).isSome) = ids := by
    refine List.filter_eq_self.mpr fun p hp => ?_
    obtain ⟨part, hpart, -⟩ := (h.2 p).mp hp
    rw [hpart, Option.isSome_some]
  have hrecords := forall₂_filterMap (f := r.parts.get?) (fun _ _ hpart => hpart) ids
  rwa [hall] at hrecords

/-- What there is to say of the parts of an owner. -/
structure Detailed (r : PartRegistry) (a : AccountId) (details : HoldingDetails) : Prop where
  all : r.Recorded (r.ownerParts a) details.all
  equipped : r.Recorded (r.ownerEquipped a) details.equipped
  unequipped : r.Recorded (r.ownerUnequipped a) details.unequipped

theorem Listed.detailed (h : r.Listed a) : r.Detailed a (r.details a) :=
  ⟨h.all.recorded, h.equipped.recorded, h.unequipped.recorded⟩

end PartRegistry

/-! ### Cars -/

namespace Garage

variable {g : Garage} {c : CarId} {car : Car} {m : CarMetadata}

/-- Everything that there is to say of a car: its record, the part in each occupied slot, and what it shows. -/
structure Described (g : Garage) (c : CarId) (car : Car) (m : CarMetadata) : Prop where
  id : m.car = c
  owner : m.owner = car.owner
  image : m.image = car.image
  /-- Slot by slot, the record of the part that is in it. -/
  parts : List.Forall₂ (fun t fitted => fitted.slot = t ∧
      ∃ p, car.slots.get t = some p ∧ g.parts.parts.get? p = some fitted.part)
    (PartType.all.filter fun t => (car.slots.get t).isSome) m.parts
  ascending : m.parts.Pairwise fun one other => one.slot.slot < other.slot.slot
  stats : g.stats c = .ok m.stats

theorem Sound.fitted_isSome (hg : g.Sound) (hcar : g.cars.cars.get? c = some car) (t : PartType) :
    (g.fitted car t).isSome = (car.slots.get t).isSome := by
  cases hslot : car.slots.get t with
  | none => simp only [fitted, hslot, Option.bind_none, Option.isSome_none]
  | some p =>
    obtain ⟨part, hpart, -⟩ := hg.matched.held c car t p hcar hslot
    rw [fitted, hslot, Option.bind_some, hpart, Option.isSome_some, Option.isSome_some]

theorem Sound.metadata_eq (hg : g.Sound) (hcar : g.cars.cars.get? c = some car) : g.metadata c = .ok {
    car := c
    owner := car.owner
    image := car.image
    parts := PartType.all.filterMap fun t => (g.fitted car t).map (⟨t, ·⟩)
    stats := g.carStats car (.ofFn (g.fitted car)) } := by
  simp only [Garage.metadata, bind_eq_ok_iff, CarRegistry.get_eq_ok_iff, pure_eq_ok_iff]
  refine ⟨car, hcar, _, hg.slotParts_eq hcar, ?_⟩
  simp only [PerType.get_ofFn]

theorem Sound.described (hg : g.Sound) (hcar : g.cars.cars.get? c = some car) :
    ∃ m, g.metadata c = .ok m ∧ g.Described c car m := by
  refine ⟨_, hg.metadata_eq hcar, rfl, rfl, rfl, ?_, ?_, hg.stats_eq hcar⟩
  · have hparts := forall₂_filterMap (f := fun t => (g.fitted car t).map (SlotPart.mk t))
      (R := fun t fitted => fitted.slot = t ∧
        ∃ p, car.slots.get t = some p ∧ g.parts.parts.get? p = some fitted.part) ?_ PartType.all
    · simpa only [Option.isSome_map, hg.fitted_isSome hcar] using hparts
    · intro t fitted h
      obtain ⟨part, hpart, rfl⟩ := Option.map_eq_some_iff.mp h
      exact ⟨rfl, Option.bind_eq_some_iff.mp hpart⟩
  · have hslots : PartType.all.Pairwise fun t u => t.slot < u.slot := by decide
    refine hslots.filterMap (fun t => (g.fitted car t).map (SlotPart.mk t)) fun t u hlt one hone other hother => ?_
    obtain ⟨_, -, rfl⟩ := Option.map_eq_some_iff.mp hone
    obtain ⟨_, -, rfl⟩ := Option.map_eq_some_iff.mp hother
    exact hlt

end Garage

/-! ### Ledgers -/

namespace Ledger

variable {hash : Hasher} {s : Ledger}

/-- What the answers are to all questions about cars, owners and parts. -/
structure QueriesExact (s : Ledger) : Prop where
  cars_ascending : ∀ a, (s.garage.cars.ownerCars a).Pairwise fun c d => c.number < d.number
  cars_exact : ∀ a c, c ∈ s.garage.cars.ownerCars a ↔
    ∃ car, s.garage.cars.cars.get? c = some car ∧ car.id = c ∧ car.owner = a
  metadata : ∀ c car, s.garage.cars.cars.get? c = some car →
    ∃ m, s.garage.metadata c = .ok m ∧ s.garage.Described c car m
  allMetadata : ∀ a, ∃ ms, s.garage.allMetadata a = .ok ms ∧
    List.Forall₂ (fun c m => s.garage.metadata c = .ok m) (s.garage.cars.ownerCars a) ms
  details : ∀ a, s.garage.parts.Detailed a (s.garage.parts.details a)

/-- Wherever operations lead, every owner's cars are listed by number and described in full, and so are the
owner's parts. -/
theorem queries_exact (hs : Reachable hash s) : s.QueriesExact := by
  have horder := inOrder_reachable hs
  have hexact (a : AccountId) (c : CarId) : c ∈ s.garage.cars.ownerCars a ↔
      ∃ car, s.garage.cars.cars.get? c = some car ∧ car.id = c ∧ car.owner = a := by
    refine (CarRegistry.mem_ownerCars.trans (horder.ordered.cars.indexed a c)).trans ?_
    refine exists_congr fun car => and_congr_right fun hcar => ?_
    exact (and_iff_right (horder.ordered.cars.filed c car hcar)).symm
  refine ⟨CarRegistry.pairwise_ownerCars _, hexact, fun c car hcar => horder.sound.described hcar, fun a => ?_,
    fun a => (horder.ordered.parts.listed a).detailed⟩
  -- Only cars that there are stand in the list, and each of these has its answer.
  refine exists_mapM_eq_ok fun c hc => ?_
  obtain ⟨car, hcar, -⟩ := (hexact a c).mp hc
  obtain ⟨m, hm, -⟩ := horder.sound.described hcar
  exact ⟨m, hm⟩

/-- The slot that the engine was taken from is passed over, and the engine lies with the other loose one. -/
theorem queries_exact_fair : Reachable Fair.hasher Fair.stripped ∧
    (∃ m, Fair.stripped.garage.metadata ⟨1⟩ = .ok m ∧ m.parts.map (·.slot) = [.transmission, .wheels] ∧
      Fair.stripped.garage.stats ⟨1⟩ = .ok m.stats) ∧
    Fair.stripped.garage.parts.ownerUnequipped (Fair.account 1) = [⟨4⟩, ⟨1⟩] ∧
    Fair.stripped.garage.parts.Detailed (Fair.account 1)
      (Fair.stripped.garage.parts.details (Fair.account 1)) := by
  have hexact := queries_exact Fair.reachable_stripped
  obtain ⟨car, hcar⟩ : ∃ car, Fair.stripped.garage.cars.cars.get? ⟨1⟩ = some car :=
    Option.isSome_iff_exists.mp (by decide +kernel)
  obtain ⟨m, hm, hdescribed⟩ := hexact.metadata ⟨1⟩ car hcar
  have hslots : (Fair.stripped.garage.metadata ⟨1⟩).map (fun m => m.parts.map (·.slot)) =
      .ok [.transmission, .wheels] := by decide +kernel
  obtain ⟨m', hm', hslots⟩ := map_eq_ok_iff.mp hslots
  cases hm.symm.trans hm'
  exact ⟨Fair.reachable_stripped, ⟨m, hm, hslots, hdescribed.stats⟩, by decide +kernel, hexact.details _⟩

end Ledger

end Paddock
