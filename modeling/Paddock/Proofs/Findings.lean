import Paddock.Proofs.Acceptance

/-! What it means that the audit reports nothing of some kind, for parts and cars that may be in any
disorder. -/
namespace Paddock

/-- Something of this kind was found. -/
def AuditReport.Reports (r : AuditReport) (kind : AuditKind) : Prop :=
  ∃ d ∈ r.discrepancies, d.kind = kind

namespace Audit

variable {g : Garage} {bank : Bank} {cars : CarRegistry} {parts : PartRegistry} {seen : Table PartId CarId}
  {l : List (CarId × PartType × PartId)} {c : CarId} {p : PartId} {t : PartType} {a owner : AccountId} {h : Holdings}
  {d e : Discrepancy} {b : Bool} {kind : AuditKind}

/-! ### Which check finds what -/

theorem kind_of_mem_reportIf (hd : d ∈ reportIf b e) : d.kind = e.kind := by
  cases b with
  | false => cases hd
  | true => rw [List.mem_singleton.mp hd]

theorem kind_of_mem_checkSlotted (hd : d ∈ checkSlotted parts c t p) :
    d.kind = .slotExclusivity ∨ d.kind = .equipFlag := by
  unfold checkSlotted at hd
  split at hd
  · rw [List.mem_singleton.mp hd]
    exact .inl rfl
  · rcases List.mem_append.mp hd with hd | hd
    · exact .inl (kind_of_mem_reportIf hd)
    · exact .inr (kind_of_mem_reportIf hd)

theorem kind_of_mem_checkSlots (hd : d ∈ checkSlots parts seen l) :
    d.kind = .slotExclusivity ∨ d.kind = .equipFlag := by
  -- On the slots still to come, whatever was seen before them.
  induction l generalizing seen with
  | nil => cases hd
  | cons x l ih =>
    simp only [checkSlots, List.mem_append] at hd
    rcases hd with (hd | hd) | hd
    · obtain ⟨first, -, rfl⟩ := Option.map_eq_some_iff.mp (Option.mem_toList.mp hd)
      exact .inl rfl
    · exact kind_of_mem_checkSlotted hd
    · exact ih hd

theorem kind_of_mem_checkMarks (hd : d ∈ checkMarks parts l) : d.kind = .equipFlag := by
  obtain ⟨part, -, hd⟩ := List.mem_flatMap.mp hd
  exact kind_of_mem_reportIf hd

theorem kind_of_mem_checkHeld (hd : d ∈ checkHeld parts owner h p) : d.kind = .partIndex := by
  unfold checkHeld at hd
  split at hd
  · rw [List.mem_singleton.mp hd]
    rfl
  · split at hd
    · rw [List.mem_singleton.mp hd]
      rfl
    · exact kind_of_mem_reportIf hd

theorem kind_of_mem_checkHoldings (hd : d ∈ checkHoldings parts owner h) : d.kind = .partIndex := by
  simp only [checkHoldings, checkKind, List.mem_append, List.mem_flatMap] at hd
  rcases hd with ((((hd | hd) | hd) | ⟨t, -, p, -, hd⟩) | hd) | ⟨p, -, hd⟩
  · exact kind_of_mem_reportIf hd
  · exact kind_of_mem_reportIf hd
  · exact kind_of_mem_reportIf hd
  · exact kind_of_mem_reportIf hd
  · exact kind_of_mem_reportIf hd
  · exact kind_of_mem_checkHeld hd

theorem kind_of_mem_checkParts (hd : d ∈ checkParts parts) : d.kind = .partIndex := by
  simp only [checkParts, List.mem_append, List.mem_flatMap] at hd
  rcases hd with ⟨part, -, hd⟩ | ⟨entry, -, hd⟩
  · exact kind_of_mem_reportIf hd
  · exact kind_of_mem_checkHoldings hd

theorem kind_of_mem_checkCars (hd : d ∈ checkCars cars) : d.kind = .carIndex := by
  simp only [checkCars, List.mem_append, List.mem_flatMap] at hd
  rcases hd with ⟨car, -, hd⟩ | ⟨entry, -, c, -, hd⟩
  · exact kind_of_mem_reportIf hd
  · exact kind_of_mem_reportIf hd

theorem kind_of_mem_checkBank (hd : d ∈ checkBank bank) : d.kind = .conservation := by
  unfold checkBank at hd
  split at hd
  · rw [List.mem_singleton.mp hd]
    rfl
  · exact kind_of_mem_reportIf hd

/-- What the audit finds, sorted by what it looks at. -/
theorem mem_discrepancies : d ∈ (audit g bank).discrepancies ↔
    (d ∈ checkSlots g.parts Table.empty (slotted g.cars) ∨ d ∈ checkMarks g.parts (slotted g.cars)) ∨
      d ∈ checkParts g.parts ∨ d ∈ checkCars g.cars ∨ d ∈ checkBank bank := by
  simp only [audit, List.mem_append, or_assoc]

theorem not_reports_partIndex_iff : ¬ (audit g bank).Reports .partIndex ↔ checkParts g.parts = [] := by
  rw [List.eq_nil_iff_forall_not_mem]
  constructor
  · intro h d hd
    exact h ⟨d, mem_discrepancies.mpr (.inr (.inl hd)), kind_of_mem_checkParts hd⟩
  · rintro h ⟨d, hd, hkind⟩
    rcases mem_discrepancies.mp hd with (hd | hd) | hd | hd | hd
    · simpa [hkind] using kind_of_mem_checkSlots hd
    · simpa [hkind] using kind_of_mem_checkMarks hd
    · exact h d hd
    · simpa [hkind] using kind_of_mem_checkCars hd
    · simpa [hkind] using kind_of_mem_checkBank hd

theorem not_reports_slots_iff :
    (¬ (audit g bank).Reports .slotExclusivity ∧ ¬ (audit g bank).Reports .equipFlag) ↔
      checkSlots g.parts Table.empty (slotted g.cars) = [] ∧ checkMarks g.parts (slotted g.cars) = [] := by
  simp only [List.eq_nil_iff_forall_not_mem]
  constructor
  · rintro ⟨hslot, hflag⟩
    refine ⟨fun d hd => ?_, fun d hd => ?_⟩
    · have hfound : d ∈ (audit g bank).discrepancies := mem_discrepancies.mpr (.inl (.inl hd))
      rcases kind_of_mem_checkSlots hd with hkind | hkind
      · exact hslot ⟨d, hfound, hkind⟩
      · exact hflag ⟨d, hfound, hkind⟩
    · exact hflag ⟨d, mem_discrepancies.mpr (.inl (.inr hd)), kind_of_mem_checkMarks hd⟩
  · rintro ⟨hslots, hmarks⟩
    -- Whatever else there is to be found is of another kind.
    have hother (d) (hd : d ∈ (audit g bank).discrepancies) : d.kind ≠ .slotExclusivity ∧ d.kind ≠ .equipFlag := by
      rcases mem_discrepancies.mp hd with (hd | hd) | hd | hd | hd
      · exact absurd hd (hslots d)
      · exact absurd hd (hmarks d)
      · simp [kind_of_mem_checkParts hd]
      · simp [kind_of_mem_checkCars hd]
      · simp [kind_of_mem_checkBank hd]
    exact ⟨fun ⟨d, hd, hkind⟩ => (hother d hd).1 hkind, fun ⟨d, hd, hkind⟩ => (hother d hd).2 hkind⟩

/-! ### Slots -/

/-- The audit has nothing to say about slots and marks just where each slot holds a part of its kind that
is marked for the car, each marked part is on its car, and no part is in two slots. -/
theorem slots_unreported_iff (hparts : ∀ p part, g.parts.parts.get? p = some part → part.id = p)
    (hcars : ∀ c car, g.cars.cars.get? c = some car → car.id = c) (bank : Bank) :
    (¬ (audit g bank).Reports .slotExclusivity ∧ ¬ (audit g bank).Reports .equipFlag) ↔
      (∀ c car t p, g.cars.cars.get? c = some car → car.slots.get t = some p →
        ∃ part, g.parts.parts.get? p = some part ∧ part.kind = t ∧ part.equippedTo = some c) ∧
      (∀ p part c, g.parts.parts.get? p = some part → part.equippedTo = some c →
        ∃ car t, g.cars.cars.get? c = some car ∧ car.slots.get t = some p) ∧
      (∀ c car t d other u p, g.cars.cars.get? c = some car → car.slots.get t = some p →
        g.cars.cars.get? d = some other → other.slots.get u = some p → c = d ∧ t = u) := by
  rw [not_reports_slots_iff, checkSlots_checkMarks_iff hparts hcars]
  simp only [Garage.fitting_eq_some_iff, Garage.slotAt_eq_some_iff]
  constructor
  · intro hwired
    have hheld (c car t p) (hcar : g.cars.cars.get? c = some car) (hslot : car.slots.get t = some p) :
        ∃ part, g.parts.parts.get? p = some part ∧ part.kind = t ∧ part.equippedTo = some c :=
      (hwired p c t).mpr ⟨car, hcar, hslot⟩
    refine ⟨hheld, fun p part c hpart hmark => ?_, fun c car t d other u p hcar hslot hother hslot' => ?_⟩
    · obtain ⟨car, hcar, hslot⟩ := (hwired p c part.kind).mp ⟨part, hpart, rfl, hmark⟩
      exact ⟨car, part.kind, hcar, hslot⟩
    · obtain ⟨part, hpart, rfl, hmark⟩ := hheld c car t p hcar hslot
      obtain ⟨part', hpart', rfl, hmark'⟩ := hheld d other u p hother hslot'
      obtain rfl := Option.some.inj (hpart.symm.trans hpart')
      exact ⟨Option.some.inj (hmark.symm.trans hmark'), rfl⟩
  · rintro ⟨hheld, hmarked, -⟩ p c t
    constructor
    · rintro ⟨part, hpart, rfl, hmark⟩
      obtain ⟨car, u, hcar, hslot⟩ := hmarked p part c hpart hmark
      -- The slot that holds the part is the one of its kind.
      obtain ⟨part', hpart', rfl, -⟩ := hheld c car u p hcar hslot
      obtain rfl := Option.some.inj (hpart.symm.trans hpart')
      exact ⟨car, hcar, hslot⟩
    · rintro ⟨car, hcar, hslot⟩
      exact hheld c car t p hcar hslot

open Ledger.Fair in
theorem slots_unreported_iff_fair :
    (∀ p part, opened.garage.parts.parts.get? p = some part → part.id = p) ∧
    (∀ c car, opened.garage.cars.cars.get? c = some car → car.id = c) ∧
    ((¬ opened.audit.Reports .slotExclusivity ∧ ¬ opened.audit.Reports .equipFlag) ↔
      (∀ c car t p, opened.garage.cars.cars.get? c = some car → car.slots.get t = some p →
        ∃ part, opened.garage.parts.parts.get? p = some part ∧ part.kind = t ∧ part.equippedTo = some c) ∧
      (∀ p part c, opened.garage.parts.parts.get? p = some part → part.equippedTo = some c →
        ∃ car t, opened.garage.cars.cars.get? c = some car ∧ car.slots.get t = some p) ∧
      (∀ c car t d other u p, opened.garage.cars.cars.get? c = some car → car.slots.get t = some p →
        opened.garage.cars.cars.get? d = some other → other.slots.get u = some p → c = d ∧ t = u)) := by
  have hordered := (Ledger.inOrder_reachable reachable_opened).ordered
  exact ⟨hordered.parts.numbered.filed, hordered.cars.filed,
    slots_unreported_iff hordered.parts.numbered.filed hordered.cars.filed opened.bank⟩

/-! ### Holdings -/

/-- Where the audit has nothing to say about lists of parts, an owner's lists of all parts, of those on
cars and of the loose ones are exact. The lists of kinds are so just where they name no part of someone
else, which the audit does not look at. -/
theorem lists_exact_of_unreported (hparts : ∀ p part, g.parts.parts.get? p = some part → part.id = p)
    (hunreported : ¬ (audit g bank).Reports .partIndex) (a : AccountId) :
    g.parts.Names a (fun _ => True) (g.parts.ownerParts a) ∧
    g.parts.Names a (·.equippedTo ≠ none) (g.parts.ownerEquipped a) ∧
    g.parts.Names a (·.equippedTo = none) (g.parts.ownerUnequipped a) ∧
    ((∀ t, g.parts.Names a (·.kind = t) (g.parts.ownerPartsByType a t)) ↔
      ∀ t, ∀ p ∈ g.parts.ownerPartsByType a t, ∃ part, g.parts.parts.get? p = some part ∧ part.owner = a) := by
  have hown (hnames : ∀ t, g.parts.Names a (·.kind = t) (g.parts.ownerPartsByType a t)) (t) (p)
      (hmem : p ∈ g.parts.ownerPartsByType a t) : ∃ part, g.parts.parts.get? p = some part ∧ part.owner = a := by
    obtain ⟨part, hpart, -, howner, -⟩ := ((hnames t).2 p).mp hmem
    exact ⟨part, hpart, howner⟩
  rcases passes_or_nothing hparts (not_reports_partIndex_iff.mp hunreported) a with
    ⟨hentry, hnothing⟩ | ⟨h, hentry, hp, howned⟩
  · have hempty : g.parts.holdingsOf a = .empty := by rw [PartRegistry.holdingsOf, hentry]; rfl
    simp only [PartRegistry.ownerParts, PartRegistry.ownerEquipped, PartRegistry.ownerUnequipped,
      PartRegistry.ownerPartsByType, hempty] at hown ⊢
    have hnone (which) : g.parts.Names a which [] := PartRegistry.names_nothing hnothing which
    exact ⟨hnone _, hnone _, hnone _, hown, fun _ t => by cases t <;> exact hnone _⟩
  · have hlists : g.parts.holdingsOf a = h := by rw [PartRegistry.holdingsOf, hentry]; rfl
    simp only [PartRegistry.ownerParts, PartRegistry.ownerEquipped, PartRegistry.ownerUnequipped,
      PartRegistry.ownerPartsByType, hlists] at hown ⊢
    refine ⟨PartRegistry.names_of_filed hparts fun p => ?_, PartRegistry.names_of_filed hparts fun p => ?_,
      PartRegistry.names_of_filed hparts fun p => ?_, hown, fun hmine t => PartRegistry.names_of_filed hparts fun p => ?_⟩
    · simp only [hp.mem_all howned, and_true]
    · simp only [hp.mem_equipped howned, Part.isEquipped_iff]
    · simp only [hp.mem_unequipped howned, Part.isEquipped_eq_false_iff]
    · exact hp.mem_byType howned hmine

end Audit

/-! ### A foreign engine -/

namespace Ledger

open Fair Edited

theorem reachable_engines : Reachable hasher engines := ⟨account 9, terms, opening, _, rfl, rfl⟩

/-- Whatever its lists are made to say, the records stay where they were. -/
theorem filed_withOwners {hash : Hasher} {s : Ledger} (hs : s.InOrder hash) (owners : Table AccountId Holdings) :
    (∀ p part, (withParts s { s.garage.parts with owners }).garage.parts.parts.get? p = some part → part.id = p) ∧
      ∀ c car, (withParts s { s.garage.parts with owners }).garage.cars.cars.get? c = some car → car.id = c :=
  ⟨hs.ordered.parts.numbered.filed, hs.ordered.cars.filed⟩

theorem filed_engineForeign :
    (∀ p part, engineForeign.garage.parts.parts.get? p = some part → part.id = p) ∧
      ∀ c car, engineForeign.garage.cars.cars.get? c = some car → car.id = c :=
  filed_withOwners (inOrder_reachable reachable_engines) _

theorem discrepancies_engineForeign : engineForeign.audit.discrepancies = [] := by decide +kernel

theorem lists_exact_of_unreported_edited :
    (∀ p part, engineForeign.garage.parts.parts.get? p = some part → part.id = p) ∧
    ¬ (Paddock.audit engineForeign.garage engineForeign.bank).Reports .partIndex ∧
    engineForeign.garage.parts.Names (account 1) (fun _ => True) (engineForeign.garage.parts.ownerParts (account 1)) ∧
    engineForeign.garage.parts.Names (account 1) (·.equippedTo ≠ none)
      (engineForeign.garage.parts.ownerEquipped (account 1)) ∧
    engineForeign.garage.parts.Names (account 1) (·.equippedTo = none)
      (engineForeign.garage.parts.ownerUnequipped (account 1)) ∧
    ((∀ t, engineForeign.garage.parts.Names (account 1) (·.kind = t)
        (engineForeign.garage.parts.ownerPartsByType (account 1) t)) ↔
      ∀ t, ∀ p ∈ engineForeign.garage.parts.ownerPartsByType (account 1) t,
        ∃ part, engineForeign.garage.parts.parts.get? p = some part ∧ part.owner = account 1) := by
  have hunreported : ¬ (Paddock.audit engineForeign.garage engineForeign.bank).Reports .partIndex := by
    rintro ⟨d, hd, -⟩
    rw [← audit, discrepancies_engineForeign] at hd
    cases hd
  exact ⟨filed_engineForeign.1, hunreported,
    Audit.lists_exact_of_unreported filed_engineForeign.1 hunreported (account 1)⟩

/-- Nothing at all is reported although the list of engines of account 1 names the engine of account 2 in
the place of its own. -/
theorem foreign_engine_unreported :
    (∀ p part, engineForeign.garage.parts.parts.get? p = some part → part.id = p) ∧
    (∀ c car, engineForeign.garage.cars.cars.get? c = some car → car.id = c) ∧
    (Paddock.audit engineForeign.garage engineForeign.bank).discrepancies = [] ∧
    engineForeign.garage.parts.ownerPartsByType (account 1) .engine = [⟨2⟩] ∧
    (engineForeign.garage.parts.parts.get? ⟨2⟩).map Part.owner = some (account 2) ∧
    ¬ engineForeign.garage.parts.Names (account 1) (·.kind = .engine)
      (engineForeign.garage.parts.ownerPartsByType (account 1) .engine) := by
  have hlist : engineForeign.garage.parts.ownerPartsByType (account 1) .engine = [⟨2⟩] := by decide +kernel
  have howner : (engineForeign.garage.parts.parts.get? ⟨2⟩).map Part.owner = some (account 2) := by decide +kernel
  refine ⟨filed_engineForeign.1, filed_engineForeign.2, discrepancies_engineForeign, hlist, howner, fun hnames => ?_⟩
  obtain ⟨part, hpart, -, hmine, -⟩ := (hnames.2 ⟨2⟩).mp (hlist ▸ List.mem_singleton.mpr rfl)
  rw [hpart, Option.map_some, hmine] at howner
  exact absurd howner (by decide)

end Ledger

end Paddock
