import Paddock.Proofs.Slots

/-! The lists of each owner name the parts that the owner has, no more and no less, whatever is done to
a registry. -/
namespace Paddock

/-! ### Lists without gaps -/

namespace TokenIndex

variable {κ : Type} [Key κ] {t : TokenIndex κ} {id k : κ}

theorem nodup_items (t : TokenIndex κ) : t.items.Nodup := by
  refine List.pairwise_iff_getElem.mpr fun i j hi hj hlt he => ?_
  have hsame := position_unique (List.getElem?_eq_getElem hi) ((List.getElem?_eq_getElem hj).trans (congrArg some he.symm))
  omega

theorem mem_insert : k ∈ (t.insert id).items ↔ id = k ∨ k ∈ t.items := by
  rw [items_insert]
  split
  · next h =>
    constructor
    · exact .inr
    · rintro (rfl | hk)
      · exact h
      · exact hk
  · rw [List.mem_append, List.mem_singleton, or_comm, eq_comm]

/-- The last token moves into the gap, so only the one taken out is lost. -/
theorem mem_remove : k ∈ (t.remove id).items ↔ id ≠ k ∧ k ∈ t.items := by
  by_cases hid : id ∈ t.items
  · obtain ⟨i, hi⟩ := List.mem_iff_getElem?.mp hid
    have hne := List.ne_nil_of_mem hid
    have hlast : t.items[t.items.length - 1]? = some (t.items.getLast hne) := by
      rw [← List.getLast?_eq_getElem?, List.getLast?_eq_some_getLast hne]
    rw [items_remove hi, List.mem_iff_getElem?, List.mem_iff_getElem?]
    simp only [getElem?_moveLast]
    constructor
    · rintro ⟨j, hj⟩
      split at hj
      · split at hj
        · next hlt hij =>
          cases hj
          refine ⟨?_, _, hlast⟩
          intro he
          have := position_unique hi (he ▸ hlast)
          omega
        · next hlt hij => exact ⟨fun he => hij (position_unique hi (he ▸ hj)), j, hj⟩
      · cases hj
    · rintro ⟨hk, j, hj⟩
      have hjlt := (List.getElem?_eq_some_iff.mp hj).1
      have hij : i ≠ j := by
        rintro rfl
        exact hk (Option.some.inj (hi.symm.trans hj))
      by_cases hend : j + 1 < t.items.length
      · exact ⟨j, by rw [if_pos hend, if_neg hij, hj]⟩
      · have hj' : j = t.items.length - 1 := by omega
        have hilt := (List.getElem?_eq_some_iff.mp hi).1
        subst hj'
        exact ⟨i, by rw [if_pos (by omega), if_pos rfl, ← hlast, hj]⟩
  · rw [items_remove_of_notMem hid]
    constructor
    · exact fun hk => ⟨fun he => hid (he ▸ hk), hk⟩
    · exact And.right

end TokenIndex

/-! ### What one owner holds -/

namespace Holdings

variable {h : Holdings} {held : PartId → Option (PartType × Bool)} {p : PartId} {t : PartType} {b b' : Bool}

/-- The lists name just the parts that there are to be held, each with its kind and whether it is on a
car. -/
structure Exact (h : Holdings) (held : PartId → Option (PartType × Bool)) : Prop where
  all : ∀ p, p ∈ h.all.items ↔ ∃ t b, held p = some (t, b)
  byType : ∀ t p, p ∈ (h.byType.get t).items ↔ ∃ b, held p = some (t, b)
  equipped : ∀ p, p ∈ h.equipped.items ↔ ∃ t, held p = some (t, true)
  unequipped : ∀ p, p ∈ h.unequipped.items ↔ ∃ t, held p = some (t, false)

theorem Exact.congr {held' : PartId → Option (PartType × Bool)} (hh : h.Exact held)
    (heq : ∀ p, held' p = held p) : h.Exact held' := by
  rwa [show held' = held from funext heq]

theorem exact_empty (hheld : ∀ p, held p = none) : empty.Exact held := by
  constructor <;> intros <;> simp [empty, TokenIndex.empty, PerType.replicate, PerType.get, hheld]
  cases ‹PartType› <;> simp

theorem Exact.add (hh : h.Exact held) (hfree : held p = none) (t : PartType) (b : Bool) :
    (h.add p t b).Exact fun q => if p = q then some (t, b) else held q := by
  refine ⟨fun q => ?_, fun u q => ?_, fun q => ?_, fun q => ?_⟩
  · by_cases hq : p = q <;> simp [Holdings.add, TokenIndex.mem_insert, hh.all, hq]
  · by_cases hq : p = q
    · subst hq
      by_cases hu : t = u <;> simp [Holdings.add, PerType.get_set, TokenIndex.mem_insert, hh.byType, hfree, hu]
    · by_cases hu : t = u <;> simp [Holdings.add, PerType.get_set, TokenIndex.mem_insert, hh.byType, hq, hu]
  · by_cases hq : p = q
    · subst hq
      cases b <;> simp [Holdings.add, TokenIndex.mem_insert, hh.equipped, hfree]
    · cases b <;> simp [Holdings.add, TokenIndex.mem_insert, hh.equipped, hq]
  · by_cases hq : p = q
    · subst hq
      cases b <;> simp [Holdings.add, TokenIndex.mem_insert, hh.unequipped, hfree]
    · cases b <;> simp [Holdings.add, TokenIndex.mem_insert, hh.unequipped, hq]

theorem Exact.remove (hh : h.Exact held) (hp : held p = some (t, b)) :
    (h.remove p t).Exact fun q => if p = q then none else held q := by
  refine ⟨fun q => ?_, fun u q => ?_, fun q => ?_, fun q => ?_⟩
  · by_cases hq : p = q <;> simp [Holdings.remove, TokenIndex.mem_remove, hh.all, hq]
  · by_cases hq : p = q
    · subst hq
      by_cases hu : t = u <;> simp [Holdings.remove, PerType.get_set, TokenIndex.mem_remove, hh.byType, hp, hu]
    · by_cases hu : t = u <;> simp [Holdings.remove, PerType.get_set, TokenIndex.mem_remove, hh.byType, hq, hu]
  · by_cases hq : p = q <;> simp [Holdings.remove, TokenIndex.mem_remove, hh.equipped, hq]
  · by_cases hq : p = q <;> simp [Holdings.remove, TokenIndex.mem_remove, hh.unequipped, hq]

theorem Exact.mark (hh : h.Exact held) (hp : held p = some (t, b)) (b' : Bool) :
    (h.mark p b').Exact fun q => if p = q then some (t, b') else held q := by
  refine ⟨fun q => ?_, fun u q => ?_, fun q => ?_, fun q => ?_⟩ <;> by_cases hq : p = q
  · subst hq
    cases b' <;> simp [Holdings.mark, hh.all, hp]
  · cases b' <;> simp [Holdings.mark, hh.all, hq]
  · subst hq
    cases b' <;> simp [Holdings.mark, hh.byType, hp]
  · cases b' <;> simp [Holdings.mark, hh.byType, hq]
  · subst hq
    cases b' <;> simp [Holdings.mark, TokenIndex.mem_insert, TokenIndex.mem_remove]
  · cases b' <;> simp [Holdings.mark, TokenIndex.mem_insert, TokenIndex.mem_remove, hh.equipped, hq]
  · subst hq
    cases b' <;> simp [Holdings.mark, TokenIndex.mem_insert, TokenIndex.mem_remove]
  · cases b' <;> simp [Holdings.mark, TokenIndex.mem_insert, TokenIndex.mem_remove, hh.unequipped, hq]

theorem Exact.empty_of_isEmpty (hh : h.Exact held) (hempty : h.isEmpty = true) : empty.Exact held := by
  refine exact_empty fun p => ?_
  cases hp : held p with
  | none => rfl
  | some x =>
    have hmem := (hh.all p).mpr ⟨x.1, x.2, hp⟩
    rw [List.isEmpty_iff.mp hempty] at hmem
    cases hmem

end Holdings

/-! ### What every owner holds -/

theorem Part.isEquipped_iff {part : Part} : part.isEquipped = true ↔ part.equippedTo ≠ none :=
  Option.isSome_iff_ne_none

theorem Part.isEquipped_eq_false_iff {part : Part} : part.isEquipped = false ↔ part.equippedTo = none := by
  rw [← Bool.not_eq_true, Garage.isLoose_iff]

namespace PartRegistry

variable {r r' : PartRegistry} {p q : PartId} {part : Part} {a owner target : AccountId} {holdings : Holdings}
  {t : PartType} {b : Bool}

/-- The kind of a part of this owner, and whether it is on a car. -/
def heldBy (r : PartRegistry) (a : AccountId) (p : PartId) : Option (PartType × Bool) :=
  (r.parts.get? p).bind fun part => if part.owner = a then some (part.kind, part.isEquipped) else none

theorem heldBy_eq_some_iff : r.heldBy a p = some (t, b) ↔
    ∃ part, r.parts.get? p = some part ∧ part.owner = a ∧ part.kind = t ∧ part.isEquipped = b := by
  simp [heldBy, Option.bind_eq_some_iff]

theorem exists_heldBy_iff : (∃ t b, r.heldBy a p = some (t, b)) ↔
    ∃ part, r.parts.get? p = some part ∧ part.owner = a := by
  simp only [heldBy_eq_some_iff]
  constructor
  · rintro ⟨_, _, part, hpart, howner, -, -⟩
    exact ⟨part, hpart, howner⟩
  · rintro ⟨part, hpart, howner⟩
    exact ⟨_, _, part, hpart, howner, rfl, rfl⟩

theorem exists_heldBy_kind_iff : (∃ b, r.heldBy a p = some (t, b)) ↔
    ∃ part, r.parts.get? p = some part ∧ part.owner = a ∧ part.kind = t := by
  simp only [heldBy_eq_some_iff]
  constructor
  · rintro ⟨_, part, hpart, howner, hkind, -⟩
    exact ⟨part, hpart, howner, hkind⟩
  · rintro ⟨part, hpart, howner, hkind⟩
    exact ⟨_, part, hpart, howner, hkind, rfl⟩

theorem exists_heldBy_marked_iff : (∃ t, r.heldBy a p = some (t, b)) ↔
    ∃ part, r.parts.get? p = some part ∧ part.owner = a ∧ part.isEquipped = b := by
  simp only [heldBy_eq_some_iff]
  constructor
  · rintro ⟨_, part, hpart, howner, -, hmark⟩
    exact ⟨part, hpart, howner, hmark⟩
  · rintro ⟨part, hpart, howner, hmark⟩
    exact ⟨_, part, hpart, howner, rfl, hmark⟩

theorem heldBy_of_get? (h : r.parts.get? p = some part) :
    r.heldBy part.owner p = some (part.kind, part.isEquipped) :=
  heldBy_eq_some_iff.mpr ⟨part, h, rfl, rfl, rfl⟩

/-- The lists of every owner are exact, and who owns nothing has none. -/
structure Indexed (r : PartRegistry) : Prop where
  exact : ∀ a, (r.holdingsOf a).Exact (r.heldBy a)
  nonempty : ∀ a holdings, r.owners.get? a = some holdings → holdings.isEmpty = false

theorem indexed_new (maxStat : UInt8) : (new maxStat).Indexed where
  exact _ := Holdings.exact_empty fun _ => rfl
  nonempty _ _ h := by cases h

/-- Approvals and numbers do not matter here. -/
theorem Indexed.congr (h : r.Indexed) (hparts : r'.parts = r.parts) (howners : r'.owners = r.owners) :
    r'.Indexed where
  exact a := by
    rw [holdingsOf, howners]
    exact (h.exact a).congr fun q => by rw [heldBy, heldBy, hparts]
  nonempty a holdings ha := h.nonempty a holdings (howners ▸ ha)

/-- One part is written, and the lists of its owner with it. -/
theorem Indexed.write (h : r.Indexed) (part : Part) (hother : ∀ a, part.owner ≠ a → r.heldBy a p = none)
    (hexact : holdings.Exact fun q =>
      if p = q then some (part.kind, part.isEquipped) else r.heldBy part.owner q)
    (hparts : r'.parts = r.parts.insert p part) (howners : r'.owners = r.owners.insert part.owner holdings) :
    r'.Indexed := by
  have hheld (a q) : r'.heldBy a q = if p = q then (if part.owner = a then some (part.kind, part.isEquipped) else none)
      else r.heldBy a q := by
    simp only [heldBy, hparts, Table.get?_insert]
    split <;> rfl
  refine ⟨fun a => ?_, fun a holdings' ha => ?_⟩
  · rw [holdingsOf, howners, Table.get?_insert]
    by_cases ha : part.owner = a
    · subst ha
      rw [if_pos rfl]
      exact hexact.congr fun q => by rw [hheld, if_pos rfl]
    · rw [if_neg ha]
      refine (h.exact a).congr fun q => ?_
      rw [hheld, if_neg ha]
      split
      · next hq => rw [← hq, hother a ha]
      · rfl
  · rw [howners, Table.get?_insert] at ha
    split at ha
    · cases ha
      have hmem := (hexact.all p).mpr ⟨_, _, if_pos rfl⟩
      cases hempty : holdings.isEmpty with
      | false => rfl
      | true =>
        rw [List.isEmpty_iff.mp hempty] at hmem
        cases hmem
    · exact h.nonempty a holdings' ha

theorem Indexed.addPart (h : r.Indexed) (hfree : r.parts.get? ⟨r.lastId + 1⟩ = none) (owner : AccountId)
    (spec : PartSpec) (car : Option CarId) : (r.addPart owner spec car).Indexed := by
  have hnone (a) : r.heldBy a ⟨r.lastId + 1⟩ = none := by rw [heldBy, hfree]; rfl
  exact h.write ⟨_, owner, spec, car⟩ (fun a _ => hnone a) ((h.exact owner).add (hnone owner) _ _) rfl rfl

theorem Indexed.mark (h : r.Indexed) (hpart : r.parts.get? p = some part) (car : Option CarId) :
    (r.mark p part car).Indexed := by
  refine h.write { part with equippedTo := car } (fun a ha => ?_)
    ((h.exact part.owner).mark (heldBy_of_get? hpart) car.isSome) rfl rfl
  rw [heldBy, hpart]
  exact if_neg ha

/-- The registry without a part. -/
def without (r : PartRegistry) (p : PartId) (part : Part) : PartRegistry :=
  { r with parts := r.parts.erase p, owners := r.dropHolding part.owner p part.kind }

theorem Indexed.without (h : r.Indexed) (hpart : r.parts.get? p = some part) :
    (r.without p part).Indexed := by
  obtain ⟨holdings, hholdings⟩ : ∃ holdings, r.owners.get? part.owner = some holdings := by
    cases hnone : r.owners.get? part.owner with
    | some holdings => exact ⟨holdings, rfl⟩
    | none =>
      have hmem := ((h.exact part.owner).all p).mpr ⟨_, _, heldBy_of_get? hpart⟩
      rw [holdingsOf, hnone] at hmem
      cases hmem
  have hof : r.holdingsOf part.owner = holdings := by rw [holdingsOf, hholdings]; rfl
  have hrest := (hof ▸ h.exact part.owner).remove (heldBy_of_get? hpart)
  have hheld (a q) : (r.without p part).heldBy a q = if p = q then none else r.heldBy a q := by
    simp only [heldBy, PartRegistry.without, Table.get?_erase]
    split <;> rfl
  have howners (a) : (r.without p part).owners.get? a = if part.owner = a then
      (if (holdings.remove p part.kind).isEmpty then none else some (holdings.remove p part.kind)) else r.owners.get? a := by
    simp only [PartRegistry.without, dropHolding, hholdings]
    split <;> simp only [Table.get?_erase, Table.get?_insert]
  refine ⟨fun a => ?_, fun a holdings' ha => ?_⟩
  · rw [holdingsOf, howners]
    by_cases ha : part.owner = a
    · subst ha
      rw [if_pos rfl, show (r.without p part).heldBy part.owner = _ from funext (hheld part.owner)]
      split
      · exact hrest.empty_of_isEmpty ‹_›
      · exact hrest
    · rw [if_neg ha]
      refine (h.exact a).congr fun q => ?_
      rw [hheld]
      split
      · next hq =>
        subst hq
        rw [heldBy, hpart]
        exact (if_neg ha).symm
      · rfl
  · rw [howners] at ha
    split at ha
    · split at ha
      · cases ha
      · next hrest =>
        cases ha
        exact Bool.eq_false_iff.mpr hrest
    · exact h.nonempty a holdings' ha

theorem Indexed.give (h : r.Indexed) (hpart : r.parts.get? p = some part) (target : AccountId) :
    (r.give p part target).Indexed := by
  have hnone (a) : (r.without p part).heldBy a p = none := by
    rw [heldBy, PartRegistry.without, Table.get?_erase, if_pos rfl]
    rfl
  refine (h.without hpart).write { part with owner := target } (fun a _ => hnone a)
    (((h.without hpart).exact target).add (hnone target) part.kind part.isEquipped) ?_ rfl
  refine Table.ext_get? fun q => ?_
  simp only [PartRegistry.give, PartRegistry.without, Table.get?_insert, Table.get?_erase]
  split <;> rfl

theorem Indexed.handed (h : r.Indexed) (hpart : r.parts.get? p = some part) (target : AccountId) :
    (r.handed p part target).Indexed := by
  unfold PartRegistry.handed
  split
  · exact h
  · exact h.give hpart target

/-! ### Numbers -/

/-- Every part is filed under its own number, and no number beyond the last one has been given away. -/
structure Numbered (r : PartRegistry) : Prop where
  filed : ∀ p part, r.parts.get? p = some part → part.id = p
  fresh : ∀ p, r.lastId.toNat < p.number.toNat → r.parts.get? p = none

theorem numbered_new (maxStat : UInt8) : (new maxStat).Numbered where
  filed _ _ h := by cases h
  fresh _ _ := rfl

theorem Numbered.next_free (h : r.Numbered) (hroom : r.lastId.toNat + 1 < UInt64.size) :
    r.parts.get? ⟨r.lastId + 1⟩ = none := by
  refine h.fresh _ ?_
  rw [toNat_next hroom]
  omega

theorem Numbered.addPart (h : r.Numbered) (hroom : r.lastId.toNat + 1 < UInt64.size) (owner : AccountId)
    (spec : PartSpec) (car : Option CarId) : (r.addPart owner spec car).Numbered where
  filed p part hp := by
    rw [Garage.get?_addPart] at hp
    split at hp
    · cases hp
      rfl
    · exact h.filed p part hp
  fresh p hp := by
    change (r.lastId + 1).toNat < p.number.toNat at hp
    rw [toNat_next hroom] at hp
    rw [Garage.get?_addPart, if_neg, h.fresh p (by omega)]
    rintro rfl
    rw [toNat_next hroom] at hp
    omega

/-- A part that is there is written again under its number. -/
theorem Numbered.write (h : r.Numbered) (hpart : r.parts.get? p = some part) (part' : Part)
    (hid : part'.id = part.id) (hparts : r'.parts = r.parts.insert p part') (hlast : r'.lastId = r.lastId) :
    r'.Numbered where
  filed q found hq := by
    rw [hparts, Table.get?_insert] at hq
    split at hq
    · next he =>
      cases hq
      rw [hid, ← he]
      exact h.filed p part hpart
    · exact h.filed q found hq
  fresh q hq := by
    rw [hlast] at hq
    rw [hparts, Table.get?_insert, if_neg, h.fresh q hq]
    rintro rfl
    rw [h.fresh p hq] at hpart
    cases hpart

theorem Numbered.mark (h : r.Numbered) (hpart : r.parts.get? p = some part) (car : Option CarId) :
    (r.mark p part car).Numbered :=
  h.write hpart { part with equippedTo := car } rfl rfl rfl

theorem Numbered.handed (h : r.Numbered) (hpart : r.parts.get? p = some part) (target : AccountId) :
    (r.handed p part target).Numbered := by
  unfold PartRegistry.handed
  split
  · exact h
  · exact h.write hpart { part with owner := target } rfl rfl rfl

/-! ### Whatever is done -/

inductive Mutation where
  | mint (owner : AccountId) (spec : PartSpec) (car : Option CarId)
  | mintBatch (owner : AccountId) (batch : List (PartSpec × Option CarId))
  | setEquipped (part : PartId) (car : Option CarId)
  | transfer (part : PartId) (source target : AccountId)
  | transferFrom (caller : AccountId) (part : PartId) (target : AccountId)
  | approve (caller : AccountId) (part : PartId) (account : Option AccountId)
  | setOperator (owner operator : AccountId) (approved : Bool)

def Mutation.inPlace : Mutation → Change PartError PartRegistry Unit
  | .mint owner spec car => discard (mintInPlace owner spec car)
  | .mintBatch owner batch => discard (mintBatchInPlace owner batch)
  | .setEquipped part car => setEquippedInPlace part car
  | .transfer part source target => transferInPlace part source target
  | .transferFrom caller part target => transferFromInPlace caller part target
  | .approve caller part account => approveInPlace caller part account
  | .setOperator owner operator approved => modify (·.setOperator owner operator approved)

/-- The registry as a change leaves it, also one that is refused. -/
def mutate (r : PartRegistry) (mutation : Mutation) : PartRegistry := (mutation.inPlace.result r).2

def run (r : PartRegistry) (mutations : List Mutation) : PartRegistry := mutations.foldl mutate r

/-- What every change of a registry keeps. -/
structure Ordered (r : PartRegistry) : Prop where
  indexed : r.Indexed
  numbered : r.Numbered

theorem ordered_new (maxStat : UInt8) : (new maxStat).Ordered := ⟨indexed_new maxStat, numbered_new maxStat⟩

theorem Ordered.addPart (h : r.Ordered) (hroom : r.lastId.toNat + 1 < UInt64.size) (owner : AccountId)
    (spec : PartSpec) (car : Option CarId) : (r.addPart owner spec car).Ordered :=
  ⟨h.indexed.addPart (h.numbered.next_free hroom) .., h.numbered.addPart hroom ..⟩

theorem Ordered.addParts (h : r.Ordered) (owner : AccountId) {batch : List (PartSpec × Option CarId)}
    (hroom : r.lastId.toNat + batch.length < UInt64.size) : (addParts owner r batch).2.Ordered := by
  induction batch generalizing r with
  | nil => exact h
  | cons item batch ih =>
    rw [List.length_cons] at hroom
    refine ih (h.addPart (by omega) owner item.1 item.2) ?_
    change (r.lastId + 1).toNat + _ < _
    rw [toNat_next (by omega)]
    omega

theorem Ordered.mark (h : r.Ordered) (hpart : r.parts.get? p = some part) (car : Option CarId) :
    (r.mark p part car).Ordered := ⟨h.indexed.mark hpart car, h.numbered.mark hpart car⟩

theorem Ordered.handed (h : r.Ordered) (hpart : r.parts.get? p = some part) (target : AccountId) :
    (r.handed p part target).Ordered := ⟨h.indexed.handed hpart target, h.numbered.handed hpart target⟩

/-- Approvals do not matter here. -/
theorem Ordered.withApprovals (h : r.Ordered) (approvals : Approvals PartId) :
    ({ r with approvals } : PartRegistry).Ordered :=
  ⟨h.indexed.congr rfl rfl, h.numbered.filed, h.numbered.fresh⟩

theorem Mutation.clean (mutation : Mutation) (r : PartRegistry) : mutation.inPlace.Clean r := by
  cases mutation with
  | mint => exact (clean_mint _ _ _ r).map
  | mintBatch => exact (clean_mintBatch _ _ r).map
  | setEquipped => exact clean_setEquipped _ _ r
  | transfer => exact clean_transfer _ _ _ r
  | transferFrom => exact clean_transferFrom _ _ _ r
  | approve => exact clean_approve _ _ _ r
  | setOperator => exact (Change.succeeds_modify _).clean

theorem ordered_inPlace (h : r.Ordered) {mutation : Mutation} (hr : mutation.inPlace r = .ok () r') :
    r'.Ordered := by
  cases mutation with
  | mint owner spec car =>
    obtain ⟨id, hmint, -⟩ := Change.map_ok_iff.mp hr
    obtain ⟨-, hroom, -, rfl⟩ := mint_eq_ok_iff.mp (Change.outcome_ok_iff.mpr hmint)
    exact h.addPart hroom owner spec car
  | mintBatch owner batch =>
    obtain ⟨ids, hmint, -⟩ := Change.map_ok_iff.mp hr
    obtain ⟨-, hroom, hadd⟩ := mintBatchInPlace_ok_iff.mp hmint
    have hordered := h.addParts owner hroom
    rwa [hadd] at hordered
  | setEquipped part car =>
    obtain ⟨found, hpart, -, rfl⟩ := setEquippedInPlace_ok_iff.mp hr
    exact h.mark hpart car
  | transfer part source target =>
    obtain ⟨found, hpart, -, rfl⟩ := transferInPlace_ok_iff.mp hr
    exact h.handed hpart target
  | transferFrom caller part target =>
    obtain ⟨found, hpart, -, -, rfl⟩ := transferFrom_eq_ok_iff.mp (Change.outcome_state_iff.mpr hr)
    exact h.handed hpart target
  | approve caller part account =>
    obtain ⟨found, -, -, rfl⟩ := approve_eq_ok_iff.mp (Change.outcome_state_iff.mpr hr)
    exact h.withApprovals _
  | setOperator owner operator approved =>
    obtain rfl := Change.modify_ok_iff.mp hr
    exact h.withApprovals _

theorem Ordered.mutate (h : r.Ordered) (mutation : Mutation) : (r.mutate mutation).Ordered := by
  unfold PartRegistry.mutate
  rcases (mutation.clean r).result_cases with hsame | ⟨_, hdone⟩
  · rw [hsame]
    exact h
  · exact ordered_inPlace h hdone

theorem ordered_run (h : r.Ordered) (mutations : List Mutation) : (r.run mutations).Ordered := by
  induction mutations generalizing r with
  | nil => exact h
  | cons mutation rest ih => exact ih (h.mutate mutation)

/-! ### What the lists name -/

/-- A list of numbers, without repetition, of the parts of one owner that are of some sort. -/
def Names (r : PartRegistry) (a : AccountId) (which : Part → Prop) (ids : List PartId) : Prop :=
  ids.Nodup ∧ ∀ p, p ∈ ids ↔ ∃ part, r.parts.get? p = some part ∧ part.id = p ∧ part.owner = a ∧ which part

/-- What the lists of an owner name, and who has lists. -/
structure Listed (r : PartRegistry) (a : AccountId) : Prop where
  all : r.Names a (fun _ => True) (r.ownerParts a)
  byType : ∀ t, r.Names a (·.kind = t) (r.ownerPartsByType a t)
  equipped : r.Names a (·.equippedTo ≠ none) (r.ownerEquipped a)
  unequipped : r.Names a (·.equippedTo = none) (r.ownerUnequipped a)
  entry : (r.owners.get? a).isSome = true ↔ ∃ p part, r.parts.get? p = some part ∧ part.owner = a

theorem names_of_filed (hfiled : ∀ p part, r.parts.get? p = some part → part.id = p) {index : TokenIndex PartId}
    {which : Part → Prop}
    (hmem : ∀ p, p ∈ index.items ↔ ∃ part, r.parts.get? p = some part ∧ part.owner = a ∧ which part) :
    r.Names a which index.items := by
  refine ⟨index.nodup_items, fun p => (hmem p).trans (exists_congr fun part => and_congr_right fun hpart => ?_)⟩
  exact (and_iff_right (hfiled p part hpart)).symm

/-- Who owns nothing has empty lists to show. -/
theorem names_nothing (hnothing : ∀ p part, r.parts.get? p = some part → part.owner ≠ a) (which : Part → Prop) :
    r.Names a which [] := by
  refine ⟨List.nodup_nil, fun p => ⟨fun hmem => (List.not_mem_nil hmem).elim, ?_⟩⟩
  rintro ⟨part, hpart, -, howner, -⟩
  exact absurd howner (hnothing p part hpart)

theorem Ordered.listed (h : r.Ordered) (a : AccountId) : r.Listed a where
  all := names_of_filed h.numbered.filed fun p => by
    simp only [(h.indexed.exact a).all, exists_heldBy_iff, and_true]
  byType t := names_of_filed h.numbered.filed fun p =>
    ((h.indexed.exact a).byType t p).trans exists_heldBy_kind_iff
  equipped := names_of_filed h.numbered.filed fun p => by
    simp only [(h.indexed.exact a).equipped, exists_heldBy_marked_iff, Part.isEquipped_iff]
  unequipped := names_of_filed h.numbered.filed fun p => by
    simp only [(h.indexed.exact a).unequipped, exists_heldBy_marked_iff, Part.isEquipped_eq_false_iff]
  entry := by
    have hexact := h.indexed.exact a
    cases hentry : r.owners.get? a with
    | none =>
      rw [holdingsOf, hentry] at hexact
      simp only [Option.isSome_none, Bool.false_eq_true, false_iff]
      rintro ⟨p, part, hpart, rfl⟩
      have hmem := (hexact.all p).mpr ⟨_, _, heldBy_of_get? hpart⟩
      cases hmem
    | some holdings =>
      rw [holdingsOf, hentry] at hexact
      simp only [Option.isSome_some, true_iff]
      obtain ⟨p, hp⟩ := List.isEmpty_eq_false_iff_exists_mem.mp (h.indexed.nonempty a holdings hentry)
      obtain ⟨t, b, hheld⟩ := (hexact.all p).mp hp
      obtain ⟨part, hpart, howner, -, -⟩ := heldBy_eq_some_iff.mp hheld
      exact ⟨p, part, hpart, howner⟩

/-- Whatever is done to a registry from its beginning, every owner's lists are exact. -/
theorem listed_run (maxStat : UInt8) (mutations : List Mutation) (a : AccountId) :
    ((new maxStat).run mutations).Listed a :=
  (ordered_run (ordered_new maxStat) mutations).listed a

end PartRegistry

end Paddock
