import Mathlib.Data.List.Perm.Subperm
import Paddock.Ledger.Audit
import Paddock.Proofs.Currency
import Paddock.Proofs.Upkeep

/-! What it means that the audit finds nothing. -/
namespace Paddock

namespace Table

variable {κ α : Type} [Key κ] {k : κ} {l : List (κ × α)}

theorem contains_insert [DecidableEq κ] (t : Table κ α) (k k' : κ) (v : α) :
    (t.insert k v).contains k' = true ↔ k = k' ∨ t.contains k' = true := by
  rw [contains, get?_insert]
  split <;> simp_all [contains]

theorem contains_ofList [DecidableEq κ] : (ofList l).contains k = true ↔ k ∈ l.map Prod.fst := by
  have hfold (t : Table κ α) : (l.foldl (fun t e => t.insert e.1 e.2) t).contains k = true ↔
      t.contains k = true ∨ k ∈ l.map Prod.fst := by
    induction l generalizing t with
    | nil => simp
    | cons e l ih =>
      rw [List.foldl_cons, ih, contains_insert, List.map_cons, List.mem_cons, eq_comm (a := k), or_comm (a := e.1 = k),
        or_assoc]
  exact (hfold empty).trans (by simp [contains, get?_empty])

end Table

namespace Audit

variable {cars : CarRegistry} {parts : PartRegistry} {bank : Bank} {c : CarId} {t : PartType} {p : PartId}
  {seen : Table PartId CarId} {l : List (CarId × PartType × PartId)} {owner a : AccountId} {h : Holdings}

theorem reportIf_eq_nil_iff {b : Bool} {d : Discrepancy} : reportIf b d = [] ↔ b = false := by
  cases b <;> simp [reportIf]

/-! ### Slots -/

/-- The record of a slotted part agrees with where it is. -/
def Agrees (parts : PartRegistry) (x : CarId × PartType × PartId) : Prop :=
  ∃ part, parts.parts.get? x.2.2 = some part ∧ part.kind = x.2.1 ∧ part.equippedTo = some x.1

theorem checkSlotted_eq_nil_iff : checkSlotted parts c t p = [] ↔ Agrees parts (c, t, p) := by
  unfold checkSlotted Agrees
  cases parts.parts.get? p with
  | none => simp
  | some part => simp [reportIf_eq_nil_iff]

theorem checkSlots_eq_nil_iff : checkSlots parts seen l = [] ↔
    (∀ x ∈ l, seen.get? x.2.2 = none) ∧ (l.map (·.2.2)).Nodup ∧ ∀ x ∈ l, Agrees parts x := by
  induction l generalizing seen with
  | nil => simp [checkSlots]
  | cons x l ih =>
    obtain ⟨c, t, p⟩ := x
    simp only [checkSlots, List.append_eq_nil_iff, checkSlotted_eq_nil_iff, ih, Option.toList_eq_nil_iff,
      Option.map_eq_none_iff, List.forall_mem_cons, List.map_cons, List.nodup_cons, List.mem_map, not_exists, not_and]
    constructor
    · rintro ⟨⟨hp, hagrees⟩, hseen, hnodup, hall⟩
      have hnew (x) (hx : x ∈ l) : p ≠ x.2.2 ∧ seen.get? x.2.2 = none := by
        have := hseen x hx
        rw [Table.get?_insert] at this
        split at this
        · cases this
        · exact ⟨‹_›, this⟩
      exact ⟨⟨hp, fun x hx => (hnew x hx).2⟩, ⟨fun x hx he => (hnew x hx).1 he.symm, hnodup⟩, hagrees, hall⟩
    · rintro ⟨⟨hp, hseen⟩, ⟨hne, hnodup⟩, hagrees, hall⟩
      refine ⟨⟨hp, hagrees⟩, fun x hx => ?_, hnodup, hall⟩
      rw [Table.get?_insert, if_neg fun he => hne x hx he.symm]
      exact hseen x hx

theorem mem_slotted (hfiled : ∀ c car, cars.cars.get? c = some car → car.id = c) :
    (c, t, p) ∈ slotted cars ↔ ∃ car, cars.cars.get? c = some car ∧ car.slots.get t = some p := by
  simp only [slotted, List.mem_flatMap, List.mem_filterMap, Table.mem_values, Option.map_eq_some_iff, Prod.mk.injEq]
  constructor
  · rintro ⟨car, ⟨d, hcar⟩, _, -, _, hslot, rfl, rfl, rfl⟩
    exact ⟨car, hfiled d car hcar ▸ hcar, hslot⟩
  · rintro ⟨car, hcar, hslot⟩
    exact ⟨car, ⟨c, hcar⟩, t, t.mem_all, p, hslot, hfiled c car hcar, rfl, rfl⟩

theorem nodup_slotted (hfiled : ∀ c car, cars.cars.get? c = some car → car.id = c)
    (honce : ∀ c t d u p, (c, t, p) ∈ slotted cars → (d, u, p) ∈ slotted cars → c = d ∧ t = u) :
    ((slotted cars).map (·.2.2)).Nodup := by
  have hids : cars.cars.values.Pairwise fun a b => a.id ≠ b.id := List.pairwise_map.mp (Table.nodup_map_values hfiled)
  have hmem {car t p} (hcar : car ∈ cars.cars.values) (hslot : car.slots.get t = some p) :
      (car.id, t, p) ∈ slotted cars := by
    obtain ⟨c, hc⟩ := Table.mem_values.mp hcar
    exact (mem_slotted hfiled).mpr ⟨car, (hfiled c car hc).symm ▸ hc, hslot⟩
  refine List.pairwise_map.mpr (List.pairwise_flatMap.mpr ⟨fun car hcar => ?_, ?_⟩)
  · refine List.pairwise_filterMap.mpr (List.Pairwise.imp ?_ (show PartType.all.Nodup by decide))
    intro t u hne x hx y hy hxy
    obtain ⟨p, hp, rfl⟩ := Option.map_eq_some_iff.mp hx
    obtain ⟨q, hq, rfl⟩ := Option.map_eq_some_iff.mp hy
    obtain rfl : p = q := hxy
    exact hne (honce _ _ _ _ _ (hmem hcar hp) (hmem hcar hq)).2
  · refine hids.imp_of_mem fun {car other} hcar hother hne x hx y hy hxy => ?_
    obtain ⟨t, -, hx⟩ := List.mem_filterMap.mp hx
    obtain ⟨u, -, hy⟩ := List.mem_filterMap.mp hy
    obtain ⟨p, hp, rfl⟩ := Option.map_eq_some_iff.mp hx
    obtain ⟨q, hq, rfl⟩ := Option.map_eq_some_iff.mp hy
    obtain rfl : p = q := hxy
    exact hne (honce _ _ _ _ _ (hmem hcar hp) (hmem hother hq)).1

theorem checkMarks_eq_nil_iff : checkMarks parts l = [] ↔
    ∀ p part, parts.parts.get? p = some part → part.isEquipped = true → part.id ∈ l.map (·.2.2) := by
  simp only [checkMarks, List.flatMap_eq_nil_iff, reportIf_eq_nil_iff, Table.mem_values]
  have hheld (p : PartId) : (Table.ofList (l.map fun s => (s.2.2, s.1))).contains p = true ↔ p ∈ l.map (·.2.2) := by
    rw [Table.contains_ofList, List.map_map]
    rfl
  constructor
  · intro h p part hpart hmark
    rw [← hheld]
    simpa [hmark] using h part ⟨p, hpart⟩
  · rintro h part ⟨p, hpart⟩
    cases hmark : part.isEquipped with
    | false => rfl
    | true => simp [(hheld part.id).mpr (h p part hpart hmark)]

/-- The slots are in order where marks and slots answer to each other. -/
theorem checkSlots_checkMarks_iff {g : Garage} (hparts : ∀ p part, g.parts.parts.get? p = some part → part.id = p)
    (hcars : ∀ c car, g.cars.cars.get? c = some car → car.id = c) :
    (checkSlots g.parts Table.empty (slotted g.cars) = [] ∧ checkMarks g.parts (slotted g.cars) = []) ↔
      ∀ p c t, g.fitting p = some (t, some c) ↔ g.slotAt c t = some p := by
  have hslotted {c t p} : (c, t, p) ∈ slotted g.cars ↔ g.slotAt c t = some p :=
    (mem_slotted hcars).trans Garage.slotAt_eq_some_iff.symm
  have hagrees {c t p} : Agrees g.parts (c, t, p) ↔ g.fitting p = some (t, some c) :=
    Garage.fitting_eq_some_iff.symm
  rw [checkSlots_eq_nil_iff, checkMarks_eq_nil_iff]
  constructor
  · rintro ⟨⟨-, -, hall⟩, hmarks⟩ p c t
    refine ⟨fun hfit => ?_, fun hslot => hagrees.mp (hall _ (hslotted.mpr hslot))⟩
    obtain ⟨part, hpart, -, hmark⟩ := Garage.fitting_eq_some_iff.mp hfit
    obtain ⟨⟨d, u, q⟩, hx, hq⟩ := List.mem_map.mp (hmarks p part hpart (by simp [Part.isEquipped, hmark]))
    obtain rfl : q = p := hq.trans (hparts p part hpart)
    have hfit' := hagrees.mp (hall _ hx)
    rw [hfit] at hfit'
    cases hfit'
    exact hslotted.mp hx
  · intro hwired
    refine ⟨⟨fun _ _ => rfl, nodup_slotted hcars ?_, ?_⟩, ?_⟩
    · intro c t d u p hc hd
      have hfit := (hwired p c t).mpr (hslotted.mp hc)
      rw [(hwired p d u).mpr (hslotted.mp hd)] at hfit
      cases hfit
      exact ⟨rfl, rfl⟩
    · rintro ⟨c, t, p⟩ hx
      exact hagrees.mpr ((hwired p c t).mpr (hslotted.mp hx))
    · intro p part hpart hmark
      obtain ⟨c, hc⟩ := Option.isSome_iff_exists.mp hmark
      have hslot := (hwired p c part.kind).mp (Garage.fitting_eq_some_iff.mpr ⟨part, hpart, rfl, hc⟩)
      exact List.mem_map.mpr ⟨_, hslotted.mpr hslot, (hparts p part hpart).symm⟩

/-! ### Holdings -/

/-- What the audit asks of one owner's lists. -/
structure Passes (parts : PartRegistry) (owner : AccountId) (h : Holdings) : Prop where
  nonempty : h.isEmpty = false
  apart : ∀ p ∈ h.equipped.items, p ∉ h.unequipped.items
  covered : ∀ p ∈ h.all.items, p ∈ h.equipped.items ∨ p ∈ h.unequipped.items
  equipped : ∀ p ∈ h.equipped.items, p ∈ h.all.items
  unequipped : ∀ p ∈ h.unequipped.items, p ∈ h.all.items
  kinds : ∀ t, ∀ p ∈ (h.byType.get t).items, ∃ part, parts.parts.get? p = some part ∧ part.kind = t
  counted : h.byType.engine.size + h.byType.transmission.size + h.byType.wheels.size = h.all.size
  held : ∀ p ∈ h.all.items, ∃ part, parts.parts.get? p = some part ∧ part.owner = owner ∧
    (part.isEquipped = true ↔ p ∈ h.equipped.items)

theorem isCovered_iff : isCovered h = true ↔ (∀ p ∈ h.all.items, p ∈ h.equipped.items ∨ p ∈ h.unequipped.items) ∧
    (∀ p ∈ h.equipped.items, p ∈ h.all.items) ∧ ∀ p ∈ h.unequipped.items, p ∈ h.all.items := by
  simp only [isCovered, Bool.and_eq_true, List.all_eq_true, Bool.or_eq_true, TokenIndex.contains_eq_true_iff, and_assoc]

theorem checkKind_eq_nil_iff : checkKind parts owner h t = [] ↔
    ∀ p ∈ (h.byType.get t).items, ∃ part, parts.parts.get? p = some part ∧ part.kind = t := by
  simp [checkKind, List.flatMap_eq_nil_iff, reportIf_eq_nil_iff]

theorem checkHeld_eq_nil_iff : checkHeld parts owner h p = [] ↔ ∃ part, parts.parts.get? p = some part ∧
    part.owner = owner ∧ (part.isEquipped = true ↔ p ∈ h.equipped.items) := by
  unfold checkHeld
  cases parts.parts.get? p with
  | none => simp
  | some part =>
    dsimp only
    split
    · next hne => simp [hne]
    · next howner =>
      simp only [ne_eq, Decidable.not_not] at howner
      simp only [reportIf_eq_nil_iff, Option.some.injEq, exists_eq_left', howner, true_and, bne_eq_false_iff_eq,
        ← TokenIndex.contains_eq_true_iff]
      exact Bool.eq_iff_iff

theorem checkHoldings_eq_nil_iff : checkHoldings parts owner h = [] ↔ Passes parts owner h := by
  simp only [checkHoldings, List.append_eq_nil_iff, reportIf_eq_nil_iff, Bool.not_eq_false', isCovered_iff,
    List.flatMap_eq_nil_iff, checkKind_eq_nil_iff, checkHeld_eq_nil_iff, sorted, List.mem_mergeSort, PartType.mem_all,
    forall_const, List.any_eq_false, TokenIndex.contains_eq_true_iff, ne_eq, decide_not, decide_eq_true_eq]
  constructor
  · rintro ⟨⟨⟨⟨⟨hne, hapart⟩, hcovered, heq, huneq⟩, hkinds⟩, hcount⟩, hheld⟩
    exact ⟨hne, hapart, hcovered, heq, huneq, hkinds, hcount, hheld⟩
  · intro h
    exact ⟨⟨⟨⟨⟨h.nonempty, h.apart⟩, h.covered, h.equipped, h.unequipped⟩, h.kinds⟩, h.counted⟩, h.held⟩

/-- The parts of all kinds. -/
def typed (h : Holdings) : List PartId := PartType.all.flatMap fun t => (h.byType.get t).items

theorem mem_typed : p ∈ typed h ↔ ∃ t, p ∈ (h.byType.get t).items := by
  simp [typed, PartType.mem_all]

theorem length_typed (h : Holdings) :
    (typed h).length = h.byType.engine.size + h.byType.transmission.size + h.byType.wheels.size := by
  simp [typed, PartType.all, PerType.get, TokenIndex.size, Nat.add_assoc]

/-- A part is listed under its own kind only. -/
theorem nodup_typed
    (hkinds : ∀ t, ∀ p ∈ (h.byType.get t).items, ∃ part, parts.parts.get? p = some part ∧ part.kind = t) :
    (typed h).Nodup := by
  refine List.pairwise_flatMap.mpr ⟨fun t _ => (h.byType.get t).nodup_items, ?_⟩
  refine List.Pairwise.imp ?_ (show PartType.all.Nodup by decide)
  rintro t u hne p hp q hq rfl
  obtain ⟨part, hpart, rfl⟩ := hkinds t p hp
  obtain ⟨part', hpart', rfl⟩ := hkinds u p hq
  exact hne (congrArg Part.kind (Option.some.inj (hpart.symm.trans hpart')))

theorem passes_of_exact (hexact : h.Exact (parts.heldBy owner)) (hne : h.isEmpty = false) :
    Passes parts owner h := by
  have hkinds : ∀ t, ∀ p ∈ (h.byType.get t).items, ∃ part, parts.parts.get? p = some part ∧ part.kind = t := by
    intro t p hp
    obtain ⟨b, hb⟩ := (hexact.byType t p).mp hp
    obtain ⟨part, hpart, -, hkind, -⟩ := PartRegistry.heldBy_eq_some_iff.mp hb
    exact ⟨part, hpart, hkind⟩
  have hperm : (typed h).Perm h.all.items := by
    refine (List.perm_ext_iff_of_nodup (nodup_typed hkinds) h.all.nodup_items).mpr fun p => ?_
    rw [mem_typed, hexact.all]
    exact exists_congr fun t => hexact.byType t p
  refine ⟨hne, fun p hp hp' => ?_, fun p hp => ?_, fun p hp => ?_, fun p hp => ?_, hkinds, ?_, fun p hp => ?_⟩
  · obtain ⟨t, ht⟩ := (hexact.equipped p).mp hp
    obtain ⟨u, hu⟩ := (hexact.unequipped p).mp hp'
    rw [ht] at hu
    cases hu
  · obtain ⟨t, b, hb⟩ := (hexact.all p).mp hp
    cases b
    · exact .inr ((hexact.unequipped p).mpr ⟨t, hb⟩)
    · exact .inl ((hexact.equipped p).mpr ⟨t, hb⟩)
  · obtain ⟨t, ht⟩ := (hexact.equipped p).mp hp
    exact (hexact.all p).mpr ⟨t, true, ht⟩
  · obtain ⟨t, ht⟩ := (hexact.unequipped p).mp hp
    exact (hexact.all p).mpr ⟨t, false, ht⟩
  · rw [← length_typed]
    exact hperm.length_eq
  · obtain ⟨t, b, hb⟩ := (hexact.all p).mp hp
    obtain ⟨part, hpart, howner, -, hmark⟩ := PartRegistry.heldBy_eq_some_iff.mp hb
    refine ⟨part, hpart, howner, ?_⟩
    rw [hexact.equipped, hb, hmark]
    simp

section

variable (hp : Passes parts owner h)
  (howned : ∀ p part, parts.parts.get? p = some part → part.owner = owner → p ∈ h.all.items)

include hp howned

theorem Passes.mem_all : p ∈ h.all.items ↔ ∃ part, parts.parts.get? p = some part ∧ part.owner = owner := by
  constructor
  · intro hmem
    obtain ⟨part, hpart, howner, -⟩ := hp.held p hmem
    exact ⟨part, hpart, howner⟩
  · rintro ⟨part, hpart, howner⟩
    exact howned p part hpart howner

theorem Passes.isEquipped_iff {part : Part} (hpart : parts.parts.get? p = some part) (howner : part.owner = owner) :
    part.isEquipped = true ↔ p ∈ h.equipped.items := by
  obtain ⟨part', hpart', -, hmark⟩ := hp.held p (howned p part hpart howner)
  obtain rfl := Option.some.inj (hpart.symm.trans hpart')
  exact hmark

theorem Passes.mem_equipped : p ∈ h.equipped.items ↔
    ∃ part, parts.parts.get? p = some part ∧ part.owner = owner ∧ part.isEquipped = true := by
  constructor
  · intro hmem
    obtain ⟨part, hpart, howner, hmark⟩ := hp.held p (hp.equipped p hmem)
    exact ⟨part, hpart, howner, hmark.mpr hmem⟩
  · rintro ⟨part, hpart, howner, hmark⟩
    exact (hp.isEquipped_iff howned hpart howner).mp hmark

theorem Passes.mem_unequipped : p ∈ h.unequipped.items ↔
    ∃ part, parts.parts.get? p = some part ∧ part.owner = owner ∧ part.isEquipped = false := by
  constructor
  · intro hmem
    obtain ⟨part, hpart, howner, hmark⟩ := hp.held p (hp.unequipped p hmem)
    refine ⟨part, hpart, howner, Bool.eq_false_iff.mpr fun he => ?_⟩
    exact hp.apart p (hmark.mp he) hmem
  · rintro ⟨part, hpart, howner, hmark⟩
    refine (hp.covered p (howned p part hpart howner)).resolve_left fun hmem => ?_
    rw [(hp.isEquipped_iff howned hpart howner).mpr hmem] at hmark
    cases hmark

/-- Where every part is listed, the lists of kinds have room for nothing that is not the owner's. -/
theorem Passes.mem_byType
    (hown : ∀ t, ∀ p ∈ (h.byType.get t).items, ∃ part, parts.parts.get? p = some part ∧ part.owner = owner) :
    p ∈ (h.byType.get t).items ↔
      ∃ part, parts.parts.get? p = some part ∧ part.owner = owner ∧ part.kind = t := by
  have hkind {u p} (hmem : p ∈ (h.byType.get u).items) :
      ∃ part, parts.parts.get? p = some part ∧ part.owner = owner ∧ part.kind = u := by
    obtain ⟨part, hpart, howner⟩ := hown u p hmem
    obtain ⟨part', hpart', hkind⟩ := hp.kinds u p hmem
    obtain rfl := Option.some.inj (hpart.symm.trans hpart')
    exact ⟨part, hpart, howner, hkind⟩
  have hperm : (typed h).Perm h.all.items := by
    refine ((nodup_typed hp.kinds).subperm fun p hmem => ?_).perm_of_length_le ?_
    · obtain ⟨u, hu⟩ := mem_typed.mp hmem
      obtain ⟨part, hpart, howner, -⟩ := hkind hu
      exact howned p part hpart howner
    · rw [length_typed, hp.counted]
      exact Nat.le_refl _
  refine ⟨hkind, ?_⟩
  rintro ⟨part, hpart, howner, rfl⟩
  obtain ⟨u, hu⟩ := mem_typed.mp (hperm.mem_iff.mpr (howned p part hpart howner))
  obtain ⟨part', hpart', -, rfl⟩ := hkind hu
  rwa [Option.some.inj (hpart.symm.trans hpart')]

theorem Passes.exact
    (hown : ∀ t, ∀ p ∈ (h.byType.get t).items, ∃ part, parts.parts.get? p = some part ∧ part.owner = owner) :
    h.Exact (parts.heldBy owner) where
  all _ := (hp.mem_all howned).trans PartRegistry.exists_heldBy_iff.symm
  byType _ _ := (hp.mem_byType howned hown).trans PartRegistry.exists_heldBy_kind_iff.symm
  equipped _ := (hp.mem_equipped howned).trans PartRegistry.exists_heldBy_marked_iff.symm
  unequipped _ := (hp.mem_unequipped howned).trans PartRegistry.exists_heldBy_marked_iff.symm

end

theorem checkParts_eq_nil_iff : checkParts parts = [] ↔
    (∀ p part, parts.parts.get? p = some part →
      ∃ h, parts.owners.get? part.owner = some h ∧ part.id ∈ h.all.items) ∧
      ∀ a h, parts.owners.get? a = some h → Passes parts a h := by
  simp only [checkParts, List.append_eq_nil_iff, List.flatMap_eq_nil_iff, reportIf_eq_nil_iff, isIndexed,
    Bool.not_eq_false', Option.any_eq_true, TokenIndex.contains_eq_true_iff, Table.mem_values,
    checkHoldings_eq_nil_iff, Prod.forall, Table.mem_entries_iff, forall_exists_index]
  constructor
  · rintro ⟨hlisted, hpasses⟩
    exact ⟨fun p part hpart => hlisted part p hpart, hpasses⟩
  · rintro ⟨hlisted, hpasses⟩
    exact ⟨fun part p hpart => hlisted p part hpart, hpasses⟩

end Audit

/-- No owner's list of a kind names a part of someone else. -/
def PartRegistry.OwnKinds (r : PartRegistry) : Prop := ∀ a h, r.owners.get? a = some h →
  ∀ t, ∀ p ∈ (h.byType.get t).items, ∃ part, r.parts.get? p = some part ∧ part.owner = a

namespace Audit

variable {parts : PartRegistry}

/-- Once the audit has passed, an account has no entry and no parts, or lists that pass with every part
of its own in them. -/
theorem passes_or_nothing (hfiled : ∀ p part, parts.parts.get? p = some part → part.id = p)
    (hchecked : checkParts parts = []) (a : AccountId) :
    (parts.owners.get? a = none ∧ ∀ p part, parts.parts.get? p = some part → part.owner ≠ a) ∨
      ∃ h, parts.owners.get? a = some h ∧ Passes parts a h ∧
        ∀ p part, parts.parts.get? p = some part → part.owner = a → p ∈ h.all.items := by
  obtain ⟨hlisted, hpasses⟩ := checkParts_eq_nil_iff.mp hchecked
  have hentry {p part} (hpart : parts.parts.get? p = some part) (howner : part.owner = a) :
      ∃ h, parts.owners.get? a = some h ∧ p ∈ h.all.items := by
    obtain ⟨h, hh, hmem⟩ := hlisted p part hpart
    exact ⟨h, howner ▸ hh, hfiled p part hpart ▸ hmem⟩
  cases ha : parts.owners.get? a with
  | none =>
    refine .inl ⟨rfl, fun p part hpart howner => ?_⟩
    obtain ⟨h, hh, -⟩ := hentry hpart howner
    rw [ha] at hh
    cases hh
  | some h =>
    refine .inr ⟨h, rfl, hpasses a h ha, fun p part hpart howner => ?_⟩
    obtain ⟨h', hh', hmem⟩ := hentry hpart howner
    rw [ha] at hh'
    cases hh'
    exact hmem

theorem indexed_iff (hfiled : ∀ p part, parts.parts.get? p = some part → part.id = p) :
    parts.Indexed ↔ checkParts parts = [] ∧ parts.OwnKinds := by
  have hof {a h} (ha : parts.owners.get? a = some h) : parts.holdingsOf a = h := by
    rw [PartRegistry.holdingsOf, ha]
    rfl
  rw [checkParts_eq_nil_iff]
  constructor
  · intro hi
    refine ⟨⟨fun p part hpart => ?_, fun a h ha => ?_⟩, fun a h ha t p hp => ?_⟩
    · have hmem := ((hi.exact part.owner).all p).mpr ⟨_, _, PartRegistry.heldBy_of_get? hpart⟩
      cases ha : parts.owners.get? part.owner with
      | none =>
        rw [PartRegistry.holdingsOf, ha] at hmem
        cases hmem
      | some h =>
        rw [hof ha] at hmem
        exact ⟨h, rfl, (hfiled p part hpart).symm ▸ hmem⟩
    · exact passes_of_exact (hof ha ▸ hi.exact a) (hi.nonempty a h ha)
    · obtain ⟨b, hb⟩ := ((hi.exact a).byType t p).mp ((hof ha).symm ▸ hp)
      obtain ⟨part, hpart, howner, -⟩ := PartRegistry.heldBy_eq_some_iff.mp hb
      exact ⟨part, hpart, howner⟩
  · rintro ⟨hchecked, hown⟩
    refine ⟨fun a => ?_, fun a h ha => (hchecked.2 a h ha).nonempty⟩
    rcases passes_or_nothing hfiled (checkParts_eq_nil_iff.mpr hchecked) a with ⟨ha, hnothing⟩ | ⟨h, ha, hp, howned⟩
    · rw [PartRegistry.holdingsOf, ha]
      refine Holdings.exact_empty fun p => ?_
      cases hheld : parts.heldBy a p with
      | none => rfl
      | some x =>
        obtain ⟨part, hpart, howner⟩ := PartRegistry.exists_heldBy_iff.mp ⟨x.1, x.2, hheld⟩
        exact absurd howner (hnothing p part hpart)
    · rw [hof ha]
      exact hp.exact howned (hown a h ha)

/-! ### Cars and currency -/

theorem checkCars_eq_nil_iff {cars : CarRegistry} (hfiled : ∀ c car, cars.cars.get? c = some car → car.id = c) :
    checkCars cars = [] ↔ ∀ a c, c ∈ (cars.carsOf a).items ↔ ∃ car, cars.cars.get? c = some car ∧ car.owner = a := by
  simp only [checkCars, List.append_eq_nil_iff, List.flatMap_eq_nil_iff, reportIf_eq_nil_iff, Bool.not_eq_false',
    Option.any_eq_true, TokenIndex.contains_eq_true_iff, Table.mem_values, Prod.forall, Table.mem_entries_iff,
    decide_eq_false_iff_not, ne_eq, Decidable.not_not, Option.map_eq_some_iff, forall_exists_index, CarRegistry.carsOf]
  constructor
  · rintro ⟨hlisted, hown⟩ a c
    constructor
    · intro hmem
      cases ha : cars.owners.get? a with
      | none =>
        rw [ha] at hmem
        cases hmem
      | some index =>
        rw [ha] at hmem
        exact hown a index ha c hmem
    · rintro ⟨car, hcar, rfl⟩
      obtain ⟨index, hindex, hmem⟩ := hlisted car c hcar
      rw [hindex, ← hfiled c car hcar]
      exact hmem
  · intro h
    refine ⟨fun car c hcar => ?_, fun a index ha c hmem => ?_⟩
    · have hmem := (h car.owner c).mpr ⟨car, hcar, rfl⟩
      cases hindex : cars.owners.get? car.owner with
      | none =>
        rw [hindex] at hmem
        cases hmem
      | some index =>
        rw [hindex, ← hfiled c car hcar] at hmem
        exact ⟨index, rfl, hmem⟩
    · exact (h a c).mp (by rw [ha]; exact hmem)

theorem checkBank_eq_nil_iff {bank : Bank} : checkBank bank = [] ↔ bank.Conserved := by
  unfold checkBank
  cases hsum : bank.circulating? with
  | none =>
    simp only [List.cons_ne_nil, false_iff]
    intro hb
    rw [hb.circulating] at hsum
    cases hsum
  | some sum =>
    simp only [reportIf_eq_nil_iff, ne_eq, decide_eq_false_iff_not, Decidable.not_not]
    have htotal : sum.toNat = bank.total := by
      rw [Bank.circulating?, Amount.foldlM_add?_eq_some_iff] at hsum
      rw [Bank.total_eq_sum, hsum]
    constructor
    · rintro rfl
      exact htotal.symm
    · intro hb
      exact Amount.ext (htotal.trans hb)

/-- What the audit comes to where every record is filed under its own number. -/
theorem discrepancies_eq_nil_iff {g : Garage} {bank : Bank}
    (hparts : ∀ p part, g.parts.parts.get? p = some part → part.id = p)
    (hcars : ∀ c car, g.cars.cars.get? c = some car → car.id = c) :
    (audit g bank).discrepancies = [] ↔
      (∀ p c t, g.fitting p = some (t, some c) ↔ g.slotAt c t = some p) ∧ checkParts g.parts = [] ∧
        (∀ a c, c ∈ (g.cars.carsOf a).items ↔ ∃ car, g.cars.cars.get? c = some car ∧ car.owner = a) ∧
        bank.Conserved := by
  simp only [audit, List.append_eq_nil_iff, and_assoc, checkCars_eq_nil_iff hcars, checkBank_eq_nil_iff,
    ← checkSlots_checkMarks_iff hparts hcars]

end Audit

end Paddock
