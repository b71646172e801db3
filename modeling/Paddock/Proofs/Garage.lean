import Paddock.Proofs.Registry

/-! When the changes of a garage succeed, and what they then make of it. -/
namespace Paddock.Garage

variable {g g' : Garage} {caller : AccountId} {c d : CarId} {p q old new : PartId} {t u : PartType}
  {car : Car} {part : Part} {n : Nat}

theorem isLoose_iff : ¬ part.isEquipped = true ↔ part.equippedTo = none := by
  simp [Part.isEquipped]

/-! ### The changes -/

/-- A loose part put into a slot. -/
def attached (g : Garage) (c : CarId) (car : Car) (t : PartType) (p : PartId) (part : Part) : Garage :=
  { g with parts := g.parts.mark p part (some c) }.setSlot c car t (some p)

/-- A part taken out of its slot. -/
def detached (g : Garage) (c : CarId) (car : Car) (t : PartType) (p : PartId) (part : Part) : Garage :=
  { g with parts := g.parts.mark p part none }.setSlot c car t none

theorem markPart_ok_iff {mark : Option CarId} {x : Unit} :
    markPart p mark g = .ok x g' ↔
      ∃ part, g.parts.parts.get? p = some part ∧ part.isEquipped ≠ mark.isSome ∧
        { g with parts := g.parts.mark p part mark } = g' := by
  simp only [markPart, inParts, Change.within_ok_iff, PartRegistry.setEquippedInPlace_ok_iff]
  constructor
  · rintro ⟨_, ⟨part, hpart, hmark, rfl⟩, rfl⟩
    exact ⟨part, hpart, hmark, rfl⟩
  · rintro ⟨part, hpart, hmark, rfl⟩
    exact ⟨_, ⟨part, hpart, hmark, rfl⟩, rfl⟩

theorem writeSlot_ok_iff {content : Option PartId} {x : Unit} :
    writeSlot c t content g = .ok x g' ↔
      ∃ car, g.cars.cars.get? c = some car ∧ g.setSlot c car t content = g' := by
  simp only [writeSlot, Change.check_bind_ok_iff, Change.modify_ok_iff, CarRegistry.get_eq_ok_iff]

theorem checkEquip_eq_ok_iff :
    g.checkEquip caller c p n = .ok t ↔
      PartType.ofSlot? n = some t ∧ ∃ car, g.cars.cars.get? c = some car ∧ car.owner = caller ∧
        ∃ part, g.parts.parts.get? p = some part ∧ part.owner = caller ∧ part.equippedTo = none ∧
          part.kind = t ∧ car.slots.get t = none := by
  unfold checkEquip
  cases hn : PartType.ofSlot? n with
  | none => simp [throw_ne_ok]
  | some kind =>
    simp only [bind_eq_ok_iff, throw_bind, guard_eq_ok_iff, partsLift_eq_ok_iff, pure_eq_ok_iff,
      CarRegistry.ensureOwner_eq_ok_iff, PartRegistry.ensureOwner_eq_ok_iff, isLoose_iff]
    constructor
    · rintro ⟨car, ⟨hcar, hc⟩, part, ⟨hpart, hp⟩, hloose, hkind, hslot, rfl⟩
      exact ⟨rfl, car, hcar, hc, part, hpart, hp, hloose, by simpa using hkind, by simpa using hslot⟩
    · rintro ⟨ht, car, hcar, hc, part, hpart, hp, hloose, hkind, hslot⟩
      cases ht
      exact ⟨car, ⟨hcar, hc⟩, part, ⟨hpart, hp⟩, hloose, by simp [hkind], by simp [hslot], rfl⟩

theorem equipInPlace_ok_iff {x : Unit} :
    equipInPlace caller c p n g = .ok x g' ↔
      ∃ t car part, PartType.ofSlot? n = some t ∧
        g.cars.cars.get? c = some car ∧ car.owner = caller ∧
        g.parts.parts.get? p = some part ∧ part.owner = caller ∧ part.equippedTo = none ∧
        part.kind = t ∧ car.slots.get t = none ∧ g.attached c car t p part = g' := by
  simp only [equipInPlace, Change.check_bind_ok_iff, checkEquip_eq_ok_iff]
  simp only [Change.bind_ok_iff, markPart_ok_iff, writeSlot_ok_iff]
  constructor
  · rintro ⟨t, ⟨ht, car, hcar, hc, part, hpart, hp, hloose, hkind, hslot⟩, _, _,
      ⟨part', hpart', -, rfl⟩, car', hcar', rfl⟩
    obtain rfl := Option.some.inj (hpart.symm.trans hpart')
    obtain rfl := Option.some.inj (hcar.symm.trans hcar')
    exact ⟨t, car, part, ht, hcar, hc, hpart, hp, hloose, hkind, hslot, rfl⟩
  · rintro ⟨t, car, part, ht, hcar, hc, hpart, hp, hloose, hkind, hslot, rfl⟩
    exact ⟨t, ⟨ht, car, hcar, hc, part, hpart, hp, hloose, hkind, hslot⟩, (), _,
      ⟨part, hpart, by simp [Part.isEquipped, hloose], rfl⟩, car, hcar, rfl⟩

theorem releaseInPlace_ok_iff {held : Option PartId} :
    releaseInPlace c t g = .ok held g' ↔
      ∃ car, g.cars.cars.get? c = some car ∧ car.slots.get t = held ∧
        match held with
        | none => g = g'
        | some p => ∃ part, g.parts.parts.get? p = some part ∧ part.isEquipped = true ∧
            g.detached c car t p part = g' := by
  simp only [releaseInPlace, Change.check_bind_ok_iff, CarRegistry.get_eq_ok_iff]
  constructor
  · rintro ⟨car, hcar, h⟩
    refine ⟨car, hcar, ?_⟩
    cases hslot : car.slots.get t with
    | none =>
      simp only [hslot, Change.pure_ok_iff] at h
      obtain ⟨rfl, rfl⟩ := h
      exact ⟨rfl, rfl⟩
    | some p =>
      simp only [hslot, Change.bind_ok_iff, markPart_ok_iff, writeSlot_ok_iff,
        Change.pure_ok_iff] at h
      obtain ⟨_, _, ⟨part, hpart, hmark, rfl⟩, _, _, ⟨car', hcar', rfl⟩, rfl, rfl⟩ := h
      obtain rfl := Option.some.inj (hcar.symm.trans hcar')
      exact ⟨rfl, part, hpart, by simpa using hmark, rfl⟩
  · rintro ⟨car, hcar, hslot, h⟩
    refine ⟨car, hcar, ?_⟩
    cases held with
    | none => subst h; simp [hslot, Change.pure_ok_iff]
    | some p =>
      obtain ⟨part, hpart, hmark, rfl⟩ := h
      simp only [hslot, Change.bind_ok_iff, markPart_ok_iff, writeSlot_ok_iff, Change.pure_ok_iff]
      exact ⟨(), _, ⟨part, hpart, by simpa using hmark, rfl⟩, (), _, ⟨car, hcar, rfl⟩, trivial, rfl⟩

theorem slotOf?_eq_some (h : car.slotOf? p = some t) : car.slots.get t = some p := by
  simpa using List.find?_some h

theorem slotHolding_eq_ok_iff :
    g.slotHolding caller c p = .ok t ↔
      ∃ car, g.cars.cars.get? c = some car ∧ car.owner = caller ∧ car.slotOf? p = some t := by
  simp only [slotHolding, bind_eq_ok_iff, CarRegistry.ensureOwner_eq_ok_iff]
  constructor
  · rintro ⟨car, ⟨hcar, hc⟩, h⟩
    cases hslot : car.slotOf? p <;> simp_all [pure_eq_ok_iff, throw_ne_ok]
  · rintro ⟨car, hcar, hc, hslot⟩
    exact ⟨car, ⟨hcar, hc⟩, by simp [hslot, pure_eq_ok_iff]⟩

theorem unequipInPlace_ok_iff {x : Unit} :
    unequipInPlace caller c p g = .ok x g' ↔
      ∃ t car part, g.cars.cars.get? c = some car ∧ car.owner = caller ∧ car.slotOf? p = some t ∧
        g.parts.parts.get? p = some part ∧ part.isEquipped = true ∧
        g.detached c car t p part = g' := by
  simp only [unequipInPlace, Change.check_bind_ok_iff, slotHolding_eq_ok_iff]
  simp only [Change.bind_ok_iff, releaseInPlace_ok_iff, Change.pure_ok_iff]
  constructor
  · rintro ⟨t, ⟨car, hcar, hc, hslot⟩, _, _, ⟨car', hcar', rfl, h⟩, -, rfl⟩
    obtain rfl := Option.some.inj (hcar.symm.trans hcar')
    rw [slotOf?_eq_some hslot] at h
    obtain ⟨part, hpart, hmark, rfl⟩ := h
    exact ⟨t, car, part, hcar, hc, hslot, hpart, hmark, rfl⟩
  · rintro ⟨t, car, part, hcar, hc, hslot, hpart, hmark, rfl⟩
    refine ⟨t, ⟨car, hcar, hc, hslot⟩, some p, _, ⟨car, hcar, slotOf?_eq_some hslot, ?_⟩, trivial, rfl⟩
    exact ⟨part, hpart, hmark, rfl⟩

/-- One loose part put in the place of another. -/
def replaced (g : Garage) (c : CarId) (car : Car) (t : PartType) (old : PartId) (oldPart : Part)
    (new : PartId) (newPart : Part) : Garage :=
  { g with parts := (g.parts.mark old oldPart none).mark new newPart (some c) }.setSlot c car t (some new)

theorem checkReplace_eq_ok_iff :
    g.checkReplace caller c old new = .ok t ↔
      ∃ car, g.cars.cars.get? c = some car ∧ car.owner = caller ∧ car.slotOf? old = some t ∧
        ∃ oldPart newPart, g.parts.parts.get? old = some oldPart ∧
          g.parts.parts.get? new = some newPart ∧ newPart.owner = caller ∧
          newPart.equippedTo = none ∧ newPart.kind = oldPart.kind := by
  simp only [checkReplace, bind_eq_ok_iff, throw_bind, guard_eq_ok_iff, partsLift_eq_ok_iff,
    pure_eq_ok_iff, slotHolding_eq_ok_iff, PartRegistry.kindOf_eq_ok_iff,
    PartRegistry.ensureOwner_eq_ok_iff, isLoose_iff, ne_eq, Decidable.not_not]
  constructor
  · rintro ⟨t', ⟨car, hcar, hc, hslot⟩, _, ⟨oldPart, hold, rfl⟩, newPart, ⟨hnew, hp⟩, hloose, hkind, rfl⟩
    exact ⟨car, hcar, hc, hslot, oldPart, newPart, hold, hnew, hp, hloose, hkind⟩
  · rintro ⟨car, hcar, hc, hslot, oldPart, newPart, hold, hnew, hp, hloose, hkind⟩
    exact ⟨t, ⟨car, hcar, hc, hslot⟩, _, ⟨oldPart, hold, rfl⟩, newPart, ⟨hnew, hp⟩, hloose, hkind, rfl⟩

theorem get?_mark (r : PartRegistry) (p q : PartId) (part : Part) (mark : Option CarId) :
    (r.mark p part mark).parts.get? q =
      if p = q then some { part with equippedTo := mark } else r.parts.get? q :=
  Table.get?_insert _ _ _ _

/-- The part that goes in is not the one that comes out: one is loose and the other is not. -/
theorem ne_of_marked {oldPart newPart : Part} (hold : g.parts.parts.get? old = some oldPart)
    (hmark : oldPart.isEquipped = true) (hnew : g.parts.parts.get? new = some newPart)
    (hloose : newPart.equippedTo = none) : old ≠ new := by
  rintro rfl
  obtain rfl := Option.some.inj (hold.symm.trans hnew)
  exact absurd hmark (isLoose_iff.mpr hloose)

theorem replaceInPlace_ok_iff {x : Unit} :
    replaceInPlace caller c old new g = .ok x g' ↔
      ∃ t car oldPart newPart, g.cars.cars.get? c = some car ∧ car.owner = caller ∧
        car.slotOf? old = some t ∧ g.parts.parts.get? old = some oldPart ∧
        oldPart.isEquipped = true ∧ g.parts.parts.get? new = some newPart ∧ newPart.owner = caller ∧
        newPart.equippedTo = none ∧ newPart.kind = oldPart.kind ∧
        g.replaced c car t old oldPart new newPart = g' := by
  simp only [replaceInPlace, Change.check_bind_ok_iff, checkReplace_eq_ok_iff]
  simp only [Change.bind_ok_iff, markPart_ok_iff, writeSlot_ok_iff]
  constructor
  · rintro ⟨t, ⟨car, hcar, hc, hslot, oldPart, newPart, hold, hnew, hp, hloose, hkind⟩, _, _,
      ⟨oldPart', hold', hmark, rfl⟩, _, _, ⟨newPart', hnew', -, rfl⟩, car', hcar', rfl⟩
    obtain rfl := Option.some.inj (hold.symm.trans hold')
    obtain rfl := Option.some.inj (hcar.symm.trans hcar')
    have hmark : oldPart.isEquipped = true := by simpa using hmark
    rw [get?_mark, if_neg (ne_of_marked hold hmark hnew hloose)] at hnew'
    obtain rfl := Option.some.inj (hnew.symm.trans hnew')
    exact ⟨t, car, oldPart, newPart, hcar, hc, hslot, hold, hmark, hnew, hp, hloose, hkind, rfl⟩
  · rintro ⟨t, car, oldPart, newPart, hcar, hc, hslot, hold, hmark, hnew, hp, hloose, hkind, rfl⟩
    refine ⟨t, ⟨car, hcar, hc, hslot, oldPart, newPart, hold, hnew, hp, hloose, hkind⟩, (), _,
      ⟨oldPart, hold, by simpa using hmark, rfl⟩, (), _, ⟨newPart, ?_, ?_, rfl⟩, car, hcar, rfl⟩
    · rw [get?_mark, if_neg (ne_of_marked hold hmark hnew hloose)]
      exact hnew
    · simp [Part.isEquipped, hloose]

/-! ### Minting -/

section Minting

variable {specs : List PartSpec} {arranged : PerType PartSpec} {slots slots' : PerType (Option PartSpec)}
  {spec : PartSpec}

theorem place_eq_ok_iff :
    place slots spec = .ok slots' ↔
      slots.get spec.kind = none ∧ slots.set spec.kind (some spec) = slots' := by
  unfold place
  cases slots.get spec.kind <;> simp

/-- A spec that is placed is no longer to come. -/
theorem placed_append_filter (hempty : slots.get spec.kind = none) (rest : List PartSpec) (t : PartType) :
    ((slots.set spec.kind (some spec)).get t).toList ++ rest.filter (fun other => other.kind = t) =
      (slots.get t).toList ++ (spec :: rest).filter (fun other => other.kind = t) := by
  rw [PerType.get_set]
  by_cases ht : spec.kind = t
  · subst ht
    simp [hempty]
  · simp [ht]

/-- A slot has what it had, or what came for it, and never both. -/
theorem foldlM_place_eq_ok_iff : specs.foldlM place slots = .ok slots' ↔
    ∀ t, (slots.get t).toList ++ specs.filter (fun spec => spec.kind = t) = (slots'.get t).toList := by
  induction specs generalizing slots with
  | nil =>
    simp only [List.foldlM_nil, pure_eq_ok_iff, List.filter_nil, List.append_nil]
    constructor
    · rintro rfl t
      rfl
    · intro h
      exact PerType.ext_get fun t => by simpa using congrArg List.head? (h t)
  | cons spec rest ih =>
    simp only [List.foldlM_cons, bind_eq_ok_iff, place_eq_ok_iff, ih]
    constructor
    · rintro ⟨_, ⟨hempty, rfl⟩, h⟩ t
      exact (placed_append_filter hempty rest t).symm.trans (h t)
    · intro h
      have hempty : slots.get spec.kind = none := by
        have hlength := congrArg List.length (h spec.kind)
        cases hslot : slots.get spec.kind with
        | none => rfl
        | some other =>
          cases hafter : slots'.get spec.kind <;> simp [hslot, hafter] at hlength
      exact ⟨_, ⟨hempty, rfl⟩, fun t => (placed_append_filter hempty rest t).trans (h t)⟩

/-- Just one of the specs is for each slot. -/
def OneOfEach (specs : List PartSpec) (arranged : PerType PartSpec) : Prop :=
  ∀ t, specs.filter (fun spec => spec.kind = t) = [arranged.get t]

theorem OneOfEach.get_mem (h : OneOfEach specs arranged) (t : PartType) :
    arranged.get t ∈ specs ∧ (arranged.get t).kind = t := by
  have hmem : arranged.get t ∈ specs.filter (fun spec => spec.kind = t) := by
    rw [h t]
    exact List.mem_singleton_self _
  simpa only [List.mem_filter, decide_eq_true_eq] using hmem

theorem OneOfEach.mem_toList_iff (h : OneOfEach specs arranged) : spec ∈ arranged.toList ↔ spec ∈ specs := by
  constructor
  · intro hspec
    obtain ⟨t, rfl⟩ := PerType.mem_toList_iff.mp hspec
    exact (h.get_mem t).1
  · intro hspec
    have hown : spec ∈ specs.filter (fun other => other.kind = spec.kind) :=
      List.mem_filter.mpr ⟨hspec, decide_eq_true rfl⟩
    rw [h] at hown
    exact PerType.mem_toList_iff.mpr ⟨spec.kind, (List.mem_singleton.mp hown).symm⟩

theorem OneOfEach.perm (h : OneOfEach specs arranged) {specs' : List PartSpec} (hperm : specs.Perm specs') :
    OneOfEach specs' arranged := by
  intro t
  have hfilter := hperm.filter (fun spec => spec.kind = t)
  rw [h t] at hfilter
  exact List.perm_singleton.mp hfilter.symm

theorem length_eq_kinds (specs : List PartSpec) :
    specs.length = (specs.filter (fun spec => spec.kind = .engine)).length +
      (specs.filter (fun spec => spec.kind = .transmission)).length +
      (specs.filter (fun spec => spec.kind = .wheels)).length := by
  induction specs with
  | nil => rfl
  | cons spec rest ih =>
    rw [List.length_cons, ih]
    cases hkind : spec.kind <;> simp [hkind] <;> omega

theorem OneOfEach.length (h : OneOfEach specs arranged) : specs.length = PartType.all.length := by
  rw [length_eq_kinds, h, h, h]
  rfl

theorem arrange_eq_ok_iff : arrange specs = .ok arranged ↔ OneOfEach specs arranged := by
  have hplaced : specs.foldlM place (.replicate none) = .ok (arranged.map some) ↔ OneOfEach specs arranged := by
    refine foldlM_place_eq_ok_iff.trans (forall_congr' fun t => ?_)
    cases t <;> rfl
  simp only [arrange, throw_bind, guard_eq_ok_iff, bind_eq_ok_iff]
  constructor
  · rintro ⟨-, slots, hslots, h⟩
    split at h
    · obtain rfl := pure_eq_ok_iff.mp h
      exact hplaced.mp hslots
    all_goals cases h
  · intro h
    exact ⟨not_not_intro h.length, _, hplaced.mpr h, rfl⟩

theorem validateMint_eq_ok_iff : g.validateMint specs = .ok arranged ↔
    OneOfEach specs arranged ∧ (∀ spec ∈ specs, g.parts.Allows spec) ∧ ∃ c, g.cars.nextId = .ok c := by
  simp only [validateMint, bind_eq_ok_iff, pure_eq_ok_iff, arrange_eq_ok_iff, partsLift_eq_ok_iff]
  constructor
  · rintro ⟨_, hone, _, hvalid, c, hcar, rfl⟩
    refine ⟨hone, fun spec hspec => ?_, c, hcar⟩
    have hchecked := forM_eq_ok_iff.mp hvalid spec (hone.mem_toList_iff.mpr hspec)
    exact PartRegistry.validateSpec_eq_ok_iff.mp hchecked
  · rintro ⟨hone, hallowed, c, hcar⟩
    refine ⟨arranged, hone, (), forM_eq_ok_iff.mpr fun spec hspec => ?_, c, hcar, rfl⟩
    apply PartRegistry.validateSpec_eq_ok_iff.mpr
    exact hallowed spec (hone.mem_toList_iff.mp hspec)

end Minting

/-- The numbers that the next three parts get. -/
def nextIds (r : PartRegistry) : PerType PartId :=
  ⟨⟨r.lastId + 1⟩, ⟨r.lastId + 1 + 1⟩, ⟨r.lastId + 1 + 1 + 1⟩⟩

/-- The garage with a new car and its three new parts. -/
def minted (g : Garage) (owner : AccountId) (image : String) (c : CarId) (specs : PerType PartSpec) :
    Garage where
  parts := ((g.parts.addPart owner specs.engine (some c)).addPart owner specs.transmission
    (some c)).addPart owner specs.wheels (some c)
  cars := g.cars.addCar c owner image ((nextIds g.parts).map some)

theorem mintInPlace_ok_iff {owner : AccountId} {image : String} {specs : List PartSpec} :
    mintInPlace owner image specs g = .ok c g' ↔
      ∃ arranged, g.validateMint specs = .ok arranged ∧ g.cars.nextId = .ok c ∧
        (arranged.toList.map (·, some c)).forM (fun item => g.parts.validateSpec item.1) = .ok () ∧
        g.parts.lastId.toNat + 3 < UInt64.size ∧ g.minted owner image c arranged = g' := by
  simp only [mintInPlace, inParts, Change.check_bind_ok_iff]
  simp only [Change.bind_ok_iff, Change.within_ok_iff, PartRegistry.mintBatchInPlace_ok_iff, Change.modify_ok_iff,
    Change.pure_ok_iff]
  constructor
  · rintro ⟨arranged, hvalid, car, hcar, ids, _, ⟨_, ⟨hspecs, hroom, hadd⟩, rfl⟩, _, _, rfl, rfl, rfl⟩
    obtain ⟨rfl, rfl⟩ := Prod.mk.inj hadd
    exact ⟨arranged, hvalid, hcar, hspecs, hroom, rfl⟩
  · rintro ⟨arranged, hvalid, hcar, hspecs, hroom, rfl⟩
    exact ⟨arranged, hvalid, c, hcar, _, _, ⟨_, ⟨hspecs, hroom, rfl⟩, rfl⟩, ⟨⟩, _, rfl, rfl, rfl⟩

end Paddock.Garage
