import Paddock.Proofs.Supply

/-! Parts that are put on a car, taken off or exchanged: what comes to the same, and what undoes what. -/
namespace Paddock

/-! ### What is written back -/

theorem Table.insert_back {κ α : Type} [Key κ] {table : Table κ α} {k : κ} {v : α} (h : table.get? k = some v)
    (w : α) : (table.insert k w).insert k v = table := by
  refine Table.ext_get? fun k' => ?_
  rw [Table.get?_insert, Table.get?_insert]
  split
  · next hk => rw [← hk, h]
  · rfl

theorem PerType.set_back {α : Type} (p : PerType α) (t : PartType) (a : α) : (p.set t a).set t (p.get t) = p := by
  refine PerType.ext_get fun u => ?_
  rw [PerType.get_set, PerType.get_set]
  split
  · next hu => rw [hu]
  · rfl

namespace TokenIndex

/-- Two indices that name the same tokens differ in the order only. -/
theorem perm_items {κ : Type} [Key κ] {x y : TokenIndex κ} (h : ∀ id, id ∈ x.items ↔ id ∈ y.items) :
    x.items.Perm y.items :=
  (List.perm_ext_iff_of_nodup x.nodup_items y.nodup_items).mpr h

end TokenIndex

namespace Garage

variable {g g' mid : Garage} {caller : AccountId} {c : CarId} {p old new : PartId} {t u : PartType}
  {car : Car} {part : Part} {mark : Option CarId} {content : Option PartId}

/-! ### The slot of a part -/

/-- As a part is in one slot at most, the first slot found is the one that holds it. -/
theorem Sound.slotOf?_eq (hg : g.Sound) (hcar : g.cars.cars.get? c = some car)
    (hslot : car.slots.get t = some p) : car.slotOf? p = some t := by
  cases hfound : car.slotOf? p with
  | none =>
    have hnone := List.find?_eq_none.mp hfound t t.mem_all
    simp [hslot] at hnone
  | some u =>
    have ht := slotAt_eq_some_iff.mpr ⟨car, hcar, hslot⟩
    have hu := slotAt_eq_some_iff.mpr ⟨car, hcar, slotOf?_eq_some hfound⟩
    rw [(hg.slot_unique hu ht).2]

theorem slotAt_of_slotOf? (hcar : g.cars.cars.get? c = some car) (h : car.slotOf? p = some t) :
    g.slotAt c t = some p :=
  slotAt_eq_some_iff.mpr ⟨car, hcar, slotOf?_eq_some h⟩

/-! ### One part for another -/

/-- The one look that a replacement takes beforehand is as good as the two that are taken in turn: no check of
the second depends on what the first did, but for the slot, which it left empty. -/
theorem Sound.replace_eq_ok_iff (hg : g.Sound) (hne : old ≠ new) :
    g.replace caller c old new = .ok g' ↔
      ∃ t mid, g.slotAt c t = some old ∧ g.unequip caller c old = .ok mid ∧
        mid.equip caller c new t.slot = .ok g' := by
  constructor
  · intro h
    obtain ⟨t, car, oldPart, newPart, hcar, hc, hslot, hold, hmark, hnew, hp, hloose, hkind, rfl⟩ :=
      replaceInPlace_ok_iff.mp (Change.outcome_state_iff.mp h)
    have hheld := slotAt_of_slotOf? hcar hslot
    obtain ⟨_, hold', hfits, -⟩ := hg.part_of_slot hheld
    obtain rfl := Option.some.inj (hold.symm.trans hold')
    refine ⟨t, g.detached c car t old oldPart, hheld, ?_, ?_⟩
    · apply Change.outcome_state_iff.mpr
      exact unequipInPlace_ok_iff.mpr ⟨t, car, oldPart, hcar, hc, hslot, hold, hmark, rfl⟩
    · apply Change.outcome_state_iff.mpr
      apply equipInPlace_ok_iff.mpr
      have hempty : (car.slots.set t none).get t = none := PerType.get_set_self _ _ _
      have hkept : (g.detached c car t old oldPart).parts.parts.get? new = some newPart :=
        (get?_mark _ _ _ _ _).trans ((if_neg hne).trans hnew)
      exact ⟨t, { car with slots := car.slots.set t none }, newPart, PartType.ofSlot?_eq_some_iff.mpr rfl,
        Table.get?_insert_self _ _ _, hc, hkept, hp, hloose, hkind.trans hfits, hempty, replaced_eq.symm⟩
  · rintro ⟨t, mid, hheld, hunequip, hequip⟩
    obtain ⟨u, car, oldPart, hcar, hc, hslot, hold, hmark, rfl⟩ :=
      unequipInPlace_ok_iff.mp (Change.outcome_state_iff.mp hunequip)
    obtain ⟨v, emptied, newPart, hv, hemptied, -, hnew, hp, hloose, hkind, -, rfl⟩ :=
      equipInPlace_ok_iff.mp (Change.outcome_state_iff.mp hequip)
    obtain rfl : t = v := PartType.slot_inj (PartType.ofSlot?_eq_some_iff.mp hv).symm
    obtain rfl : u = t := (hg.slot_unique (slotAt_of_slotOf? hcar hslot) hheld).2
    obtain rfl := Option.some.inj ((Table.get?_insert_self _ _ _).symm.trans hemptied)
    obtain ⟨_, hold', hfits, -⟩ := hg.part_of_slot hheld
    obtain rfl := Option.some.inj (hold.symm.trans hold')
    have hfound : g.parts.parts.get? new = some newPart :=
      ((get?_mark _ _ _ _ _).trans (if_neg hne)).symm.trans hnew
    apply Change.outcome_state_iff.mpr
    exact replaceInPlace_ok_iff.mpr ⟨u, car, oldPart, newPart, hcar, hc, hslot, hold, hmark, hfound, hp, hloose,
      hkind.trans hfits.symm, replaced_eq⟩

/-! ### The same but for the order of lists -/

/-- Two garages with the same records, in which every owner's lists name the same parts. The order of the lists
may tell what was put on and taken off on the way. -/
structure Alike (g g' : Garage) : Prop where
  parts : g'.parts = { g.parts with owners := g'.parts.owners }
  cars : g'.cars = g.cars
  all : ∀ a, (g'.parts.ownerParts a).Perm (g.parts.ownerParts a)
  byType : ∀ a t, (g'.parts.ownerPartsByType a t).Perm (g.parts.ownerPartsByType a t)
  equipped : ∀ a, (g'.parts.ownerEquipped a).Perm (g.parts.ownerEquipped a)
  unequipped : ∀ a, (g'.parts.ownerUnequipped a).Perm (g.parts.ownerUnequipped a)

/-- Where the lists are exact, the records determine what they name. -/
theorem alike_of_records (h : g.parts.Indexed) (h' : g'.parts.Indexed)
    (hparts : g'.parts = { g.parts with owners := g'.parts.owners }) (hcars : g'.cars = g.cars) :
    g.Alike g' := by
  have htable : g'.parts.parts = g.parts.parts := by rw [hparts]
  have hheld (a : AccountId) : g'.parts.heldBy a = g.parts.heldBy a := by
    funext p
    rw [PartRegistry.heldBy, PartRegistry.heldBy, htable]
  have hexact (a : AccountId) : (g'.parts.holdingsOf a).Exact (g.parts.heldBy a) := hheld a ▸ h'.exact a
  refine ⟨hparts, hcars, fun a => ?_, fun a t => ?_, fun a => ?_, fun a => ?_⟩
  · exact TokenIndex.perm_items fun p => ((hexact a).all p).trans ((h.exact a).all p).symm
  · exact TokenIndex.perm_items fun p => ((hexact a).byType t p).trans ((h.exact a).byType t p).symm
  · exact TokenIndex.perm_items fun p => ((hexact a).equipped p).trans ((h.exact a).equipped p).symm
  · exact TokenIndex.perm_items fun p => ((hexact a).unequipped p).trans ((h.exact a).unequipped p).symm

theorem Alike.stats_eq (h : g.Alike g') (d : CarId) : g'.stats d = g.stats d := by
  have htable : g'.parts.parts = g.parts.parts := by rw [h.parts]
  simp only [stats, slotParts, carStats, PartRegistry.get, htable, h.cars]

/-! ### On and off again -/

/-- One part marked and one slot written. -/
def refitted (g : Garage) (c : CarId) (car : Car) (t : PartType) (p : PartId) (part : Part)
    (mark : Option CarId) (content : Option PartId) : Garage :=
  { g with parts := g.parts.mark p part mark }.setSlot c car t content

theorem Ordered.refitted (h : g.Ordered) (hcar : g.cars.cars.get? c = some car)
    (hpart : g.parts.parts.get? p = some part) (t : PartType) (mark : Option CarId) (content : Option PartId) :
    (g.refitted c car t p part mark content).Ordered :=
  ⟨h.parts.mark hpart _, h.cars.put hcar _ rfl rfl⟩

/-- The mark and the slot written back as they were. -/
theorem Ordered.alike_refitted_back (h : g.Ordered) (hcar : g.cars.cars.get? c = some car)
    (hpart : g.parts.parts.get? p = some part) (t : PartType) (mark : Option CarId) (content : Option PartId) :
    g.Alike ((g.refitted c car t p part mark content).refitted c
      { car with slots := car.slots.set t content } t p { part with equippedTo := mark }
      part.equippedTo (car.slots.get t)) := by
  have hthere := h.refitted hcar hpart t mark content
  have hback := hthere.refitted (Table.get?_insert_self _ _ _) (Table.get?_insert_self _ _ _) t part.equippedTo
    (car.slots.get t)
  have hparts : (g.parts.parts.insert p { part with equippedTo := mark }).insert p part = g.parts.parts :=
    Table.insert_back hpart _
  have hslots : (car.slots.set t content).set t (car.slots.get t) = car.slots := PerType.set_back _ t content
  have hcars : (g.cars.cars.insert c { car with slots := car.slots.set t content }).insert c car =
      g.cars.cars := Table.insert_back hcar _
  refine alike_of_records h.parts.indexed hback.parts.indexed ?_ ?_
  · simp only [Garage.refitted, setSlot, PartRegistry.mark, hparts]
  · simp only [Garage.refitted, setSlot, CarRegistry.put, hslots, hcars]

/-- A part that was put on comes off, and nothing is left to see of it. -/
theorem Sound.unequip_of_equip (hg : g.Sound) (hordered : g.Ordered) {n : Nat}
    (h : g.equip caller c p n = .ok mid) :
    ∃ g', mid.unequip caller c p = .ok g' ∧ g.Alike g' := by
  obtain ⟨t, car, part, -, hcar, hc, hpart, -, hloose, hkind, hslot, rfl⟩ :=
    equipInPlace_ok_iff.mp (Change.outcome_state_iff.mp h)
  have hfilled : (car.slots.set t (some p)).get t = some p := PerType.get_set_self _ _ _
  have hcar' : (g.attached c car t p part).cars.cars.get? c =
      some { car with slots := car.slots.set t (some p) } := Table.get?_insert_self _ _ _
  have hpart' : (g.attached c car t p part).parts.parts.get? p = some { part with equippedTo := some c } :=
    Table.get?_insert_self _ _ _
  have hholds := (hg.attached hcar hpart hloose hkind hslot).slotOf?_eq hcar' hfilled
  refine ⟨_, Change.outcome_state_iff.mpr (unequipInPlace_ok_iff.mpr
    ⟨t, _, _, hcar', hc, hholds, hpart', rfl, rfl⟩), ?_⟩
  have hback := hordered.alike_refitted_back hcar hpart t (some c) (some p)
  rwa [hloose, hslot] at hback

/-- The car and the slot are known to do, so that the part can be put back is only up to its owner. -/
theorem Sound.equip_detached_iff (hg : g.Sound) (hcar : g.cars.cars.get? c = some car) (hc : car.owner = caller)
    (hpart : g.parts.parts.get? p = some part) (hslot : car.slots.get t = some p) (g' : Garage) :
    (g.detached c car t p part).equip caller c p t.slot = .ok g' ↔
      part.owner = caller ∧ (g.detached c car t p part).attached c
        { car with slots := car.slots.set t none } t p { part with equippedTo := none } = g' := by
  obtain ⟨_, hfound, hkind, -⟩ := hg.part_of_slot (slotAt_eq_some_iff.mpr ⟨car, hcar, hslot⟩)
  obtain rfl := Option.some.inj (hpart.symm.trans hfound)
  have hempty : (car.slots.set t none).get t = none := PerType.get_set_self _ _ _
  have hcar' : (g.detached c car t p part).cars.cars.get? c =
      some { car with slots := car.slots.set t none } := Table.get?_insert_self _ _ _
  have hpart' : (g.detached c car t p part).parts.parts.get? p = some { part with equippedTo := none } :=
    Table.get?_insert_self _ _ _
  refine Change.outcome_state_iff.trans (equipInPlace_ok_iff.trans ⟨?_, ?_⟩)
  · rintro ⟨u, car', part', hu, hfoundCar, -, hfoundPart, howner, -, -, -, rfl⟩
    obtain rfl : t = u := PartType.slot_inj (PartType.ofSlot?_eq_some_iff.mp hu).symm
    obtain rfl := Option.some.inj (hcar'.symm.trans hfoundCar)
    obtain rfl := Option.some.inj (hpart'.symm.trans hfoundPart)
    exact ⟨howner, rfl⟩
  · rintro ⟨howner, rfl⟩
    exact ⟨t, _, _, PartType.ofSlot?_eq_some_iff.mpr rfl, hcar', hc, hpart', howner, rfl, hkind, hempty, rfl⟩

/-- A part that was taken off goes on again if it is the caller's, and then nothing is left to see of it. -/
theorem Sound.equip_of_unequip (hg : g.Sound) (hordered : g.Ordered)
    (h : g.unequip caller c p = .ok mid) :
    ∃ t, g.slotAt c t = some p ∧ mid.slotAt c t = none ∧
      ((∃ g', mid.equip caller c p t.slot = .ok g') ↔ g.parts.ownerOf p = .ok caller) ∧
      ∀ g', mid.equip caller c p t.slot = .ok g' → g.Alike g' := by
  obtain ⟨t, car, part, hcar, hc, hfound, hpart, -, rfl⟩ :=
    unequipInPlace_ok_iff.mp (Change.outcome_state_iff.mp h)
  have hslot := slotOf?_eq_some hfound
  have hheld := slotAt_of_slotOf? hcar hfound
  have hequip := hg.equip_detached_iff hcar hc hpart hslot
  refine ⟨t, hheld, (slotAt_detached hcar).trans (if_pos ⟨rfl, rfl⟩), ?_, ?_⟩
  · simp only [hequip, exists_and_left, exists_eq', and_true, PartRegistry.ownerOf_eq_ok_iff, hpart,
      Option.some.injEq, exists_eq_left']
  · intro g' h'
    obtain ⟨-, rfl⟩ := (hequip g').mp h'
    obtain ⟨_, hsame, -, hmark⟩ := hg.part_of_slot hheld
    obtain rfl := Option.some.inj (hpart.symm.trans hsame)
    have hback := hordered.alike_refitted_back hcar hpart t none none
    rwa [hmark, hslot] at hback

end Garage

/-! ### Wherever operations lead -/

namespace Ledger

variable {hash : Hasher} {s : Ledger}

namespace Fair

/-- Account 1 has an engine more than the one on its car. -/
def stocked : Ledger := (opened.execute hasher (.mintPart (account 9) (account 1) (spec .engine))).2

/-- And has taken off the one on its car. -/
def stripped : Ledger := (stocked.execute hasher (.unequip (account 1) ⟨1⟩ ⟨1⟩)).2

theorem reachable_stocked : Reachable hasher stocked := reachable_execute reachable_opened _

theorem reachable_stripped : Reachable hasher stripped := reachable_execute reachable_stocked _

end Fair

/-- To replace a part is to take it off and to put the other one into its slot: the one succeeds where the
other two do, and leads to the same garage with all its lists in the same order. -/
theorem replace_eq_unequip_equip (hs : Reachable hash s) (caller : AccountId) (c : CarId) {old new : PartId}
    (hne : old ≠ new) (g' : Garage) :
    s.garage.replace caller c old new = .ok g' ↔
      ∃ t mid, s.garage.slotAt c t = some old ∧ s.garage.unequip caller c old = .ok mid ∧
        mid.equip caller c new t.slot = .ok g' :=
  (coherent_reachable hs).sound.replace_eq_ok_iff hne

/-- The new engine takes the place of the first one. -/
theorem replace_eq_unequip_equip_fair : Reachable Fair.hasher Fair.stocked ∧ (⟨1⟩ : PartId) ≠ ⟨4⟩ ∧
    ∃ g', Fair.stocked.garage.replace (Fair.account 1) ⟨1⟩ ⟨1⟩ ⟨4⟩ = .ok g' ∧
      ∃ t mid, Fair.stocked.garage.slotAt ⟨1⟩ t = some ⟨1⟩ ∧
        Fair.stocked.garage.unequip (Fair.account 1) ⟨1⟩ ⟨1⟩ = .ok mid ∧
        mid.equip (Fair.account 1) ⟨1⟩ ⟨4⟩ t.slot = .ok g' := by
  have hne : (⟨1⟩ : PartId) ≠ ⟨4⟩ := by decide
  obtain ⟨g', h⟩ : ∃ g', Fair.stocked.garage.replace (Fair.account 1) ⟨1⟩ ⟨1⟩ ⟨4⟩ = .ok g' :=
    exists_of_isOk (by decide +kernel)
  exact ⟨Fair.reachable_stocked, hne, g', h, (replace_eq_unequip_equip Fair.reachable_stocked _ _ hne g').mp h⟩

/-- To take off what was just put on always succeeds, to put on what was just taken off only for the owner of
the part, and either leads back to where it began, but for the order of the owner's lists. -/
theorem equip_unequip_inverse (hs : Reachable hash s) (caller : AccountId) (c : CarId) (p : PartId) :
    (∀ n mid, s.garage.equip caller c p n = .ok mid →
      ∃ g', mid.unequip caller c p = .ok g' ∧ s.garage.Alike g' ∧ g'.stats c = s.garage.stats c) ∧
    ∀ mid, s.garage.unequip caller c p = .ok mid →
      ∃ t, s.garage.slotAt c t = some p ∧ mid.slotAt c t = none ∧
        ((∃ g', mid.equip caller c p t.slot = .ok g') ↔ s.garage.parts.ownerOf p = .ok caller) ∧
        ∀ g', mid.equip caller c p t.slot = .ok g' → s.garage.Alike g' ∧ g'.stats c = s.garage.stats c := by
  have hsound := (coherent_reachable hs).sound
  have hordered := (consecutive_reachable hs).1
  constructor
  · intro n mid h
    obtain ⟨g', hunequip, halike⟩ := hsound.unequip_of_equip hordered h
    exact ⟨g', hunequip, halike, halike.stats_eq c⟩
  · intro mid h
    obtain ⟨t, hheld, hempty, hiff, hback⟩ := hsound.equip_of_unequip hordered h
    refine ⟨t, hheld, hempty, hiff, fun g' h' => ?_⟩
    have halike := hback g' h'
    exact ⟨halike, halike.stats_eq c⟩

/-- The engine that lies ready goes on and comes off, the transmission comes off and goes on. -/
theorem equip_unequip_inverse_fair : Reachable Fair.hasher Fair.stripped ∧
    (∃ mid g', Fair.stripped.garage.equip (Fair.account 1) ⟨1⟩ ⟨4⟩ 0 = .ok mid ∧
      mid.unequip (Fair.account 1) ⟨1⟩ ⟨4⟩ = .ok g' ∧ Fair.stripped.garage.Alike g') ∧
    ∃ (t : PartType) (mid g' : Garage), Fair.stripped.garage.unequip (Fair.account 1) ⟨1⟩ ⟨2⟩ = .ok mid ∧
      mid.equip (Fair.account 1) ⟨1⟩ ⟨2⟩ t.slot = .ok g' ∧ Fair.stripped.garage.Alike g' := by
  refine ⟨Fair.reachable_stripped, ?_, ?_⟩
  · obtain ⟨mid, h⟩ : ∃ mid, Fair.stripped.garage.equip (Fair.account 1) ⟨1⟩ ⟨4⟩ 0 = .ok mid :=
      exists_of_isOk (by decide +kernel)
    obtain ⟨g', h', halike, -⟩ := (equip_unequip_inverse Fair.reachable_stripped _ _ _).1 0 mid h
    exact ⟨mid, g', h, h', halike⟩
  · obtain ⟨mid, h⟩ : ∃ mid, Fair.stripped.garage.unequip (Fair.account 1) ⟨1⟩ ⟨2⟩ = .ok mid :=
      exists_of_isOk (by decide +kernel)
    obtain ⟨t, -, -, hiff, hback⟩ := (equip_unequip_inverse Fair.reachable_stripped _ _ _).2 mid h
    have howner : Fair.stripped.garage.parts.ownerOf ⟨2⟩ = .ok (Fair.account 1) := by rfl
    obtain ⟨g', h'⟩ := hiff.mpr howner
    exact ⟨t, mid, g', h, h', (hback g' h').1⟩

end Ledger

end Paddock
