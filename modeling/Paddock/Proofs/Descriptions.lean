import Mathlib.Data.List.Forall2
import Paddock.Proofs.Assembly
import Paddock.Proofs.Requests

/-! What becomes of a generator's description: no number in it is cut short, and none gets past the ledger. -/
namespace Paddock

section Lists

variable {α β : Type} {bad : α → Prop} {a x : α} {l before : List α} {R : α → β → Prop} {m : List β}

/-- The first of a list that is bad, and what stands before it. -/
structure IsFirst (bad : α → Prop) (l before : List α) (x : α) : Prop where
  split : ∃ after, l = before ++ x :: after
  good : ∀ y ∈ before, ¬ bad y
  bad : bad x

theorem isFirst_cons_iff : IsFirst bad (a :: l) before x ↔
    bad a ∧ before = [] ∧ x = a ∨ ¬ bad a ∧ ∃ rest, before = a :: rest ∧ IsFirst bad l rest x := by
  constructor
  · rintro ⟨⟨after, hsplit⟩, hgood, hbad⟩
    cases before with
    | nil =>
      obtain ⟨rfl, -⟩ := List.cons.inj hsplit
      exact .inl ⟨hbad, rfl, rfl⟩
    | cons b rest =>
      obtain ⟨rfl, hrest⟩ := List.cons.inj hsplit
      have ha := hgood a List.mem_cons_self
      exact .inr ⟨ha, rest, rfl, ⟨after, hrest⟩, fun y hy => hgood y (List.mem_cons_of_mem _ hy), hbad⟩
  · rintro (⟨ha, rfl, rfl⟩ | ⟨ha, rest, rfl, ⟨after, rfl⟩, hgood, hbad⟩)
    · exact ⟨⟨l, rfl⟩, List.forall_mem_nil _, ha⟩
    · exact ⟨⟨after, rfl⟩, List.forall_mem_cons.mpr ⟨ha, hgood⟩, hbad⟩

theorem IsFirst.mem (h : IsFirst bad l before x) : x ∈ l := by
  obtain ⟨⟨after, rfl⟩, -, -⟩ := h
  exact List.mem_append_right _ List.mem_cons_self

theorem exists_of_mem_forall₂ (h : List.Forall₂ R l m) (hx : x ∈ l) : ∃ y ∈ m, R x y := by
  induction h with
  | nil => cases hx
  | cons hfirst _ ih =>
    rcases List.mem_cons.mp hx with rfl | hx
    · exact ⟨_, List.mem_cons_self, hfirst⟩
    · obtain ⟨y, hy, hrel⟩ := ih hx
      exact ⟨y, List.mem_cons_of_mem _ hy, hrel⟩

end Lists

namespace WirePart

variable {w : WirePart} {wires : List WirePart} {spec : PartSpec} {specs : List PartSpec} {part : Nat} {value : UInt16}
  {b : UInt8} {e : DescriptorFault}

/-- The stats in the order in which they are looked at. -/
def stats (w : WirePart) : List UInt16 := [w.first, w.second, w.third]

/-- No byte holds the value. -/
def Oversized (value : UInt16) : Prop := 255 < value.toNat

/-- Every stat can be had in a byte. -/
def Fits (w : WirePart) : Prop := ∀ value ∈ w.stats, ¬ Oversized value

theorem fits_iff : w.Fits ↔ ¬ Oversized w.first ∧ ¬ Oversized w.second ∧ ¬ Oversized w.third := by
  simp [Fits, stats]

/-- The spec says of a part what the generator says of it, number for number. -/
structure Keeps (w : WirePart) (spec : PartSpec) : Prop where
  kind : spec.kind = w.kind
  image : spec.image = w.image
  stats : spec.stats.toList.map UInt8.toNat = w.stats.map UInt16.toNat

theorem narrow_eq_ok_iff : narrow part value = .ok b ↔ b.toNat = value.toNat := by
  have hbyte := b.toNat_lt
  unfold narrow
  split
  · next hlt =>
    have hread : (UInt8.ofNat value.toNat).toNat = value.toNat := UInt8.toNat_ofNat_of_lt' hlt
    constructor
    · intro h
      obtain rfl := Except.ok.inj h
      exact hread
    · intro h
      apply congrArg Except.ok
      apply UInt8.toNat_inj.mp
      omega
  · next hlt =>
    constructor
    · nofun
    · intro h
      exact absurd (h ▸ hbyte) hlt

theorem narrow_eq_error_iff : narrow part value = .error e ↔ Oversized value ∧ .invalidStat part value = e := by
  have hsize : UInt8.size = 256 := rfl
  unfold narrow Oversized
  split
  · next hlt =>
    constructor
    · nofun
    · rintro ⟨hover, -⟩
      omega
  · next hlt =>
    rw [Except.error.injEq]
    exact ⟨fun h => ⟨by omega, h⟩, And.right⟩

theorem toSpec_eq_ok_iff : w.toSpec part = .ok spec ↔ w.Keeps spec := by
  obtain ⟨kind, first, second, third, image⟩ := w
  obtain ⟨kind', ⟨first', second', third'⟩, image'⟩ := spec
  simp only [toSpec, bind_eq_ok_iff, narrow_eq_ok_iff, pure_eq_ok_iff, PartSpec.mk.injEq, PartStats.mk.injEq]
  constructor
  · rintro ⟨_, hfirst, _, hsecond, _, hthird, rfl, ⟨rfl, rfl, rfl⟩, rfl⟩
    exact ⟨rfl, rfl, by simp [PartStats.toList, stats, hfirst, hsecond, hthird]⟩
  · rintro ⟨rfl, rfl, hstats⟩
    simp only [PartStats.toList, stats, List.map_cons, List.map_nil, List.cons.injEq, and_true] at hstats
    obtain ⟨hfirst, hsecond, hthird⟩ := hstats
    exact ⟨_, hfirst, _, hsecond, _, hthird, rfl, ⟨rfl, rfl, rfl⟩, rfl⟩

theorem exists_narrow_iff (part : Nat) : (∃ b, narrow part value = .ok b) ↔ ¬ Oversized value := by
  cases h : narrow part value with
  | ok b =>
    have hb := narrow_eq_ok_iff.mp h
    have hbyte := b.toNat_lt
    refine ⟨fun _ => ?_, fun _ => ⟨b, rfl⟩⟩
    unfold Oversized
    omega
  | error e =>
    have hover := (narrow_eq_error_iff.mp h).1
    exact ⟨nofun, fun hfit => absurd hover hfit⟩

/-- The stat that is reported of a part: the first that is too great. -/
def Reports (w : WirePart) (value : UInt16) : Prop := ∃ before, IsFirst Oversized w.stats before value

theorem reports_iff : w.Reports value ↔ Oversized w.first ∧ value = w.first ∨ ¬ Oversized w.first ∧
    (Oversized w.second ∧ value = w.second ∨ ¬ Oversized w.second ∧ Oversized w.third ∧ value = w.third) := by
  have hnone (before : List UInt16) (value : UInt16) : ¬ IsFirst Oversized [] before value := by
    intro h
    exact absurd h.mem List.not_mem_nil
  simp only [Reports, stats, isFirst_cons_iff, hnone, and_false, exists_false, or_false]
  constructor
  · rintro ⟨before, ⟨hfirst, -, rfl⟩ | ⟨hfirst, rest, -, ⟨hsecond, -, rfl⟩ | ⟨hsecond, rest', -, hthird, -, rfl⟩⟩⟩
    · exact .inl ⟨hfirst, rfl⟩
    · exact .inr ⟨hfirst, .inl ⟨hsecond, rfl⟩⟩
    · exact .inr ⟨hfirst, .inr ⟨hsecond, hthird, rfl⟩⟩
  · rintro (⟨hfirst, rfl⟩ | ⟨hfirst, ⟨hsecond, rfl⟩ | ⟨hsecond, hthird, rfl⟩⟩)
    · exact ⟨_, .inl ⟨hfirst, rfl, rfl⟩⟩
    · exact ⟨_, .inr ⟨hfirst, _, rfl, .inl ⟨hsecond, rfl, rfl⟩⟩⟩
    · exact ⟨_, .inr ⟨hfirst, _, rfl, .inr ⟨hsecond, _, rfl, hthird, rfl, rfl⟩⟩⟩

theorem toSpec_eq_error_iff : w.toSpec part = .error e ↔ ∃ value, w.Reports value ∧ .invalidStat part value = e := by
  simp only [toSpec, bind_eq_error_iff, narrow_eq_error_iff, exists_and_right, exists_narrow_iff, pure_ne_error,
    and_false, exists_false, or_false, reports_iff]
  constructor
  · rintro (⟨hfirst, he⟩ | ⟨hfirst, ⟨hsecond, he⟩ | ⟨hsecond, hthird, he⟩⟩)
    · exact ⟨_, .inl ⟨hfirst, rfl⟩, he⟩
    · exact ⟨_, .inr ⟨hfirst, .inl ⟨hsecond, rfl⟩⟩, he⟩
    · exact ⟨_, .inr ⟨hfirst, .inr ⟨hsecond, hthird, rfl⟩⟩, he⟩
  · rintro ⟨_, ⟨hfirst, rfl⟩ | ⟨hfirst, ⟨hsecond, rfl⟩ | ⟨hsecond, hthird, rfl⟩⟩, he⟩
    · exact .inl ⟨hfirst, he⟩
    · exact .inr ⟨hfirst, .inl ⟨hsecond, he⟩⟩
    · exact .inr ⟨hfirst, .inr ⟨hsecond, hthird, he⟩⟩

theorem exists_keeps_iff : (∃ spec, w.Keeps spec) ↔ w.Fits := by
  simp only [fits_iff, ← exists_narrow_iff 0, ← @toSpec_eq_ok_iff w _ 0, toSpec, bind_eq_ok_iff, pure_eq_ok_iff]
  constructor
  · rintro ⟨_, first, hfirst, second, hsecond, third, hthird, -⟩
    exact ⟨⟨first, hfirst⟩, ⟨second, hsecond⟩, third, hthird⟩
  · rintro ⟨⟨first, hfirst⟩, ⟨second, hsecond⟩, third, hthird⟩
    exact ⟨_, first, hfirst, second, hsecond, third, hthird, rfl⟩

/-! ### A list of parts -/

theorem toSpecs_eq_ok_iff : toSpecs part wires = .ok specs ↔ List.Forall₂ Keeps wires specs := by
  induction wires generalizing part specs with
  | nil =>
    simp only [toSpecs, Except.ok.injEq, List.forall₂_nil_left_iff]
    exact eq_comm
  | cons w wires ih =>
    simp only [toSpecs, bind_eq_ok_iff, toSpec_eq_ok_iff, ih, pure_eq_ok_iff, List.forall₂_cons_left_iff]
    constructor
    · rintro ⟨spec, hspec, rest, hrest, rfl⟩
      exact ⟨spec, rest, hspec, hrest, rfl⟩
    · rintro ⟨spec, rest, hspec, hrest, rfl⟩
      exact ⟨spec, hspec, rest, hrest, rfl⟩

/-- The first part that has a stat too great is reported by its place, with the first such stat of it. -/
theorem toSpecs_eq_error_iff : toSpecs part wires = .error e ↔ ∃ before w value,
    IsFirst (fun w => ¬ w.Fits) wires before w ∧ w.Reports value ∧ .invalidStat (part + before.length) value = e := by
  induction wires generalizing part with
  | nil =>
    refine ⟨nofun, ?_⟩
    rintro ⟨_, _, _, hfirst, -⟩
    exact absurd hfirst.mem List.not_mem_nil
  | cons w wires ih =>
    simp only [toSpecs, bind_eq_error_iff, toSpec_eq_error_iff, toSpec_eq_ok_iff, pure_ne_error, and_false,
      exists_false, or_false, exists_and_right, exists_keeps_iff, ih, isFirst_cons_iff]
    have hbad {value} (h : w.Reports value) : ¬ w.Fits := by
      obtain ⟨_, hfirst⟩ := h
      exact fun hfits => hfits value hfirst.mem hfirst.bad
    constructor
    · rintro (⟨value, hvalue, he⟩ | ⟨hfits, before, u, value, hfirst, hvalue, he⟩)
      · exact ⟨[], w, value, .inl ⟨hbad hvalue, rfl, rfl⟩, hvalue, he⟩
      · refine ⟨w :: before, u, value, .inr ⟨not_not_intro hfits, before, rfl, hfirst⟩, hvalue, ?_⟩
        rwa [List.length_cons, Nat.add_comm before.length, ← Nat.add_assoc]
    · rintro ⟨_, _, value, ⟨-, rfl, rfl⟩ | ⟨hfits, before, rfl, hfirst⟩, hvalue, he⟩
      · exact .inl ⟨value, hvalue, he⟩
      · refine .inr ⟨not_not.mp hfits, before, _, value, hfirst, hvalue, ?_⟩
        rwa [List.length_cons, Nat.add_comm before.length, ← Nat.add_assoc] at he

end WirePart

namespace WireDescriptor

variable {w : WireDescriptor} {d : CarDescriptor} {e : DescriptorFault}

theorem toDescriptor_eq_ok_iff :
    w.toDescriptor = .ok d ↔ d.image = w.image ∧ List.Forall₂ WirePart.Keeps w.parts d.parts := by
  obtain ⟨image, parts⟩ := d
  simp only [toDescriptor, bind_eq_ok_iff, pure_eq_ok_iff, WirePart.toSpecs_eq_ok_iff, CarDescriptor.mk.injEq]
  constructor
  · rintro ⟨_, hparts, rfl, rfl⟩
    exact ⟨rfl, hparts⟩
  · rintro ⟨rfl, hparts⟩
    exact ⟨_, hparts, rfl, rfl⟩

theorem toDescriptor_eq_error_iff : w.toDescriptor = .error e ↔ ∃ before part value,
    IsFirst (fun part => ¬ part.Fits) w.parts before part ∧ part.Reports value ∧
      .invalidStat before.length value = e := by
  simp only [toDescriptor, bind_eq_error_iff, pure_ne_error, and_false, exists_false, or_false,
    WirePart.toSpecs_eq_error_iff, Nat.zero_add]

theorem exists_toDescriptor_iff : (∃ d, w.toDescriptor = .ok d) ↔ ∀ part ∈ w.parts, part.Fits := by
  constructor
  · rintro ⟨d, hd⟩ part hpart
    obtain ⟨spec, -, hkeeps⟩ := exists_of_mem_forall₂ (toDescriptor_eq_ok_iff.mp hd).2 hpart
    exact WirePart.exists_keeps_iff.mp ⟨spec, hkeeps⟩
  · intro hfits
    cases h : w.toDescriptor with
    | ok d => exact ⟨d, rfl⟩
    | error e =>
      obtain ⟨_, part, _, hfirst, -, -⟩ := toDescriptor_eq_error_iff.mp h
      exact absurd (hfits part hfirst.mem) hfirst.bad

end WireDescriptor

namespace Garage

variable {g : Garage} {arranged : PerType PartSpec} {c : CarId} {p : PartId} {part : Part}

/-- Nothing but the parts of the new car is new. -/
theorem exists_slot_of_minted (hroom : g.parts.lastId.toNat + 3 < UInt64.size) {owner : AccountId} {image : String}
    (hnone : g.parts.parts.get? p = none)
    (hpart : (g.minted owner image c arranged).parts.parts.get? p = some part) :
    ∃ t, (nextIds g.parts).get t = p ∧ part.spec = arranged.get t := by
  by_cases hnew : ∃ t, (nextIds g.parts).get t = p
  · obtain ⟨t, rfl⟩ := hnew
    rw [get?_minted_new hroom] at hpart
    obtain rfl := Option.some.inj hpart
    exact ⟨t, rfl, rfl⟩
  · rw [get?_minted_old owner image arranged fun t ht => hnew ⟨t, ht⟩, hnone] at hpart
    cases hpart

end Garage

namespace Ledger

variable {hash : Hasher} {s s' : Ledger} {reply : Reply} {caller : AccountId} {payment : Amount} {c : CarId}
  {w : WireDescriptor} {d : CarDescriptor}

/-- The car `c` is minted from parts as they were described. -/
structure MintedFrom (wires : List WirePart) (s : Ledger) (c : CarId) (s' : Ledger) : Prop where
  made : ∀ w ∈ wires, ∃ p part, s'.garage.slotAt c w.kind = some p ∧ s.garage.parts.parts.get? p = none ∧
    s'.garage.parts.parts.get? p = some part ∧ w.Keeps part.spec
  /-- No other part is made, and none with a stat greater than the ledger allows. -/
  described : ∀ p part, s.garage.parts.parts.get? p = none → s'.garage.parts.parts.get? p = some part →
    s'.garage.slotAt c part.kind = some p ∧ s.garage.parts.Allows part.spec ∧ ∃ w ∈ wires, w.Keeps part.spec

theorem mintedFrom_of_execute (hs : s.Coherent) (hd : w.toDescriptor = .ok d)
    (h : s.execute hash (.mintCar caller d.toMintRequest payment) = (.ok reply, s')) :
    ∃ c, reply = .car c ∧ MintedFrom w.parts s c s' := by
  obtain ⟨-, hkept⟩ := WireDescriptor.toDescriptor_eq_ok_iff.mp hd
  cases step_of_execute h with
  | @mintCar _ _ _ _ c _ hprice hfunds hmint =>
    obtain ⟨arranged, hone, hallowed, -, hroom, rfl⟩ := Garage.mintInPlace_ok_iff_oneOfEach.mp hmint
    have hslot (t : PartType) : (s.garage.minted caller d.image c arranged).slotAt c t =
        some ((Garage.nextIds s.garage.parts).get t) := by
      rw [Garage.slotAt_minted, if_pos rfl]
    refine ⟨c, rfl, fun wire hwire => ?_, fun p part hnone hpart => ?_⟩
    · obtain ⟨spec, hspec, hkeeps⟩ := exists_of_mem_forall₂ hkept hwire
      obtain ⟨t, rfl⟩ := PerType.mem_toList_iff.mp (hone.mem_toList_iff.mpr hspec)
      have hkind : wire.kind = t := hkeeps.kind.symm.trans (hone.get_mem t).2
      have hunused : s.garage.parts.parts.get? ((Garage.nextIds s.garage.parts).get t) = none := by
        apply hs.sound.parts_fresh
        rw [Garage.number_nextIds hroom]
        omega
      have hmade := Garage.get?_minted_new (c := c) hroom caller d.image arranged t
      rw [hkind]
      exact ⟨_, _, hslot t, hunused, hmade, hkeeps⟩
    · obtain ⟨t, rfl, hspec⟩ := Garage.exists_slot_of_minted hroom hnone hpart
      obtain ⟨hmem, hkind⟩ := hone.get_mem t
      rw [Part.kind, hspec, hkind]
      exact ⟨hslot t, hallowed _ hmem, exists_of_mem_forall₂ hkept.flip hmem⟩

/-- What becomes of a description: it is taken over as it is, or refused for the first stat that is too great, and a
ledger that mints from it makes parts with just the stats described. -/
structure DescriptionKept (hash : Hasher) (w : WireDescriptor) : Prop where
  taken_iff : (∃ d, w.toDescriptor = .ok d) ↔ ∀ part ∈ w.parts, ∀ value ∈ part.stats, value.toNat ≤ 255
  kept : ∀ d, w.toDescriptor = .ok d → d.image = w.image ∧ List.Forall₂ WirePart.Keeps w.parts d.parts
  refused_iff : ∀ e, w.toDescriptor = .error e ↔ ∃ before part value,
    IsFirst (fun part => ¬ part.Fits) w.parts before part ∧ part.Reports value ∧
      .invalidStat before.length value = e
  minted : ∀ d, w.toDescriptor = .ok d → ∀ s, Reachable hash s → ∀ caller payment reply s',
    s.execute hash (.mintCar caller d.toMintRequest payment) = (.ok reply, s') →
      ∃ c, reply = .car c ∧ MintedFrom w.parts s c s'

theorem description_kept (hash : Hasher) (w : WireDescriptor) : DescriptionKept hash w where
  taken_iff := by
    simpa only [WirePart.Fits, WirePart.Oversized, Nat.not_lt] using WireDescriptor.exists_toDescriptor_iff
  kept _ hd := WireDescriptor.toDescriptor_eq_ok_iff.mp hd
  refused_iff _ := WireDescriptor.toDescriptor_eq_error_iff
  minted _ hd _ hs _ _ _ _ h := mintedFrom_of_execute (coherent_reachable hs) hd h

namespace Fair

/-- Wheels first, as the generator would send them. -/
def described : WireDescriptor := ⟨"", unsorted.map .ofSpec⟩

theorem toDescriptor_described : described.toDescriptor = .ok ⟨"", unsorted⟩ := by
  rw [WireDescriptor.toDescriptor, described, WirePart.toSpecs_ofSpec]
  rfl

/-- Three stats are too great, in two parts. -/
def oversized : WireDescriptor :=
  ⟨"", [⟨.engine, 255, 11, 0, "e"⟩, ⟨.transmission, 4, 300, 999, "t"⟩, ⟨.wheels, 256, 1, 1, "w"⟩]⟩

end Fair

open Fair in
/-- A car is minted from one description; the other is refused for the second stat of its second part. -/
theorem description_kept_fair :
    (∃ d c s', described.toDescriptor = .ok d ∧
      opened.execute hasher (.mintCar (account 2) d.toMintRequest 500) = (.ok (.car c), s') ∧
      MintedFrom described.parts opened c s') ∧
    oversized.toDescriptor = .error (.invalidStat 1 300) := by
  constructor
  · have hmint : ∃ reply s', opened.execute hasher (.mintCar (account 2) ⟨"", unsorted⟩ 500) = (.ok reply, s') :=
      (mintable_iff (coherent_reachable reachable_opened)).mp mintable_unsorted
    obtain ⟨reply, s', h⟩ := hmint
    obtain ⟨c, rfl, hminted⟩ := (description_kept hasher described).minted _ toDescriptor_described opened
      reachable_opened (account 2) 500 reply s' h
    exact ⟨_, c, s', toDescriptor_described, h, hminted⟩
  · have hengine : (⟨.engine, 255, 11, 0, "e"⟩ : WirePart).Fits := by
      rw [WirePart.fits_iff]
      unfold WirePart.Oversized
      decide
    have hstat : IsFirst WirePart.Oversized [4, 300, 999] [4] 300 := by
      unfold WirePart.Oversized
      exact ⟨⟨[999], rfl⟩, List.forall_mem_singleton.mpr (by decide), by decide⟩
    have htransmission : ¬ (⟨.transmission, 4, 300, 999, "t"⟩ : WirePart).Fits := fun hfits =>
      hfits 300 hstat.mem hstat.bad
    exact ((description_kept hasher oversized).refused_iff _).mpr ⟨[_], _, 300,
      ⟨⟨_, rfl⟩, List.forall_mem_singleton.mpr (not_not_intro hengine), htransmission⟩, ⟨[4], hstat⟩, rfl⟩

end Ledger

end Paddock
