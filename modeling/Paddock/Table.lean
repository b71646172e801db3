/-!
Tables: finite maps kept in the order of their keys. A table is determined by its look-ups
(`Table.ext_get?`), so equal contents are equal values.
-/
namespace Paddock

/-- A type of keys: its values are numbered without repetition, and sorted by their numbers. -/
class Key (κ : Type) where
  rank : κ → Nat
  rank_inj : ∀ {a b : κ}, rank a = rank b → a = b

instance : Key Nat := ⟨id, id⟩

instance : Key UInt64 := ⟨UInt64.toNat, UInt64.toNat_inj.mp⟩

variable {κ α β : Type} [Key κ]

theorem Key.rank_eq_iff {a b : κ} : Key.rank a = Key.rank b ↔ a = b :=
  ⟨Key.rank_inj, congrArg _⟩

instance (priority := low) Key.decidableEq : DecidableEq κ := fun a b =>
  decidable_of_iff (Key.rank a = Key.rank b) Key.rank_eq_iff

/-- Entries stand in the strict order of their keys. -/
def Sorted (entries : List (κ × α)) : Prop :=
  entries.Pairwise fun a b => Key.rank a.1 < Key.rank b.1

structure Table (κ α : Type) [Key κ] where
  entries : List (κ × α)
  sorted : Sorted entries

namespace Table

variable {t u : Table κ α} {k k' : κ} {v : α}

instance [DecidableEq α] : DecidableEq (Table κ α) := fun t u =>
  decidable_of_iff (@Eq (List (κ × α)) t.entries u.entries)
    ⟨fun h => by cases t; cases u; simp_all, congrArg _⟩

def empty : Table κ α := ⟨[], List.Pairwise.nil⟩

instance : Inhabited (Table κ α) := ⟨empty⟩

def get? (t : Table κ α) (k : κ) : Option α :=
  (t.entries.find? fun e => Key.rank e.1 == Key.rank k).map Prod.snd

def contains (t : Table κ α) (k : κ) : Bool :=
  (t.get? k).isSome

def size (t : Table κ α) : Nat := t.entries.length

def isEmpty (t : Table κ α) : Bool := t.entries.isEmpty

def keys (t : Table κ α) : List κ := t.entries.map Prod.fst

def values (t : Table κ α) : List α := t.entries.map Prod.snd

def insertEntry (k : κ) (v : α) : List (κ × α) → List (κ × α)
  | [] => [(k, v)]
  | e :: rest =>
    if Key.rank k < Key.rank e.1 then (k, v) :: e :: rest
    else if Key.rank e.1 < Key.rank k then e :: insertEntry k v rest
    else (k, v) :: rest

theorem mem_insertEntry {x : κ × α} {l : List (κ × α)} (h : x ∈ insertEntry k v l) :
    x = (k, v) ∨ x ∈ l := by
  induction l with
  | nil => simpa [insertEntry] using h
  | cons e l ih =>
    simp only [insertEntry] at h
    split at h
    · simpa using h
    · split at h
      · rcases List.mem_cons.mp h with rfl | h
        · simp
        · rcases ih h with h | h <;> simp [h]
      · rcases List.mem_cons.mp h with h | h <;> simp [h]

theorem sorted_insertEntry {l : List (κ × α)} (h : Sorted l) : Sorted (insertEntry k v l) := by
  induction l with
  | nil => exact List.pairwise_singleton _ _
  | cons e l ih =>
    obtain ⟨he, hl⟩ := List.pairwise_cons.mp h
    simp only [insertEntry]
    split
    · next hk =>
      refine List.pairwise_cons.mpr ⟨fun x hx => ?_, h⟩
      rcases List.mem_cons.mp hx with rfl | hx
      · exact hk
      · exact Nat.lt_trans hk (he x hx)
    · split
      · next hk =>
        refine List.pairwise_cons.mpr ⟨fun x hx => ?_, ih hl⟩
        rcases mem_insertEntry hx with rfl | hx
        · exact hk
        · exact he x hx
      · refine List.pairwise_cons.mpr ⟨fun x hx => ?_, hl⟩
        have := he x hx
        show Key.rank k < Key.rank x.1
        omega

/-- A key that is present keeps its place and gets the new value. -/
def insert (t : Table κ α) (k : κ) (v : α) : Table κ α :=
  ⟨insertEntry k v t.entries, sorted_insertEntry t.sorted⟩

def erase (t : Table κ α) (k : κ) : Table κ α :=
  ⟨t.entries.filter fun e => Key.rank e.1 != Key.rank k, t.sorted.filter _⟩

/-- Later entries of the list replace earlier ones with the same key. -/
def ofList (entries : List (κ × α)) : Table κ α :=
  entries.foldl (fun t e => t.insert e.1 e.2) empty

theorem find?_insertEntry (k k' : κ) (v : α) {l : List (κ × α)} (h : Sorted l) :
    (insertEntry k v l).find? (fun e => Key.rank e.1 == Key.rank k') =
      if Key.rank k = Key.rank k' then some (k, v)
      else l.find? (fun e => Key.rank e.1 == Key.rank k') := by
  induction l with
  | nil => simp only [insertEntry, List.find?]; split <;> simp_all
  | cons e l ih =>
    obtain ⟨he, hl⟩ := List.pairwise_cons.mp h
    simp only [insertEntry]
    split
    · rw [List.find?_cons]; split <;> simp_all
    · split
      · rw [List.find?_cons, ih hl]
        split <;> split <;> simp_all
      · rw [List.find?_cons]
        split
        · simp_all
        · rw [if_neg (by simp_all), List.find?_cons]
          split
          · simp_all; omega
          · rfl

theorem get?_empty (k : κ) : (empty : Table κ α).get? k = none := rfl

theorem get?_insert (t : Table κ α) (k k' : κ) (v : α) [Decidable (k = k')] :
    (t.insert k v).get? k' = if k = k' then some v else t.get? k' := by
  simp only [get?, insert, find?_insertEntry _ _ _ t.sorted, Key.rank_eq_iff]
  by_cases h : k = k' <;> simp [h]

theorem get?_insert_self (t : Table κ α) (k : κ) (v : α) : (t.insert k v).get? k = some v := by
  simp [get?_insert]

theorem get?_insert_ne (t : Table κ α) (v : α) (h : k ≠ k') :
    (t.insert k v).get? k' = t.get? k' := by
  simp [get?_insert, h]

theorem get?_erase (t : Table κ α) (k k' : κ) [Decidable (k = k')] :
    (t.erase k).get? k' = if k = k' then none else t.get? k' := by
  simp only [get?, erase, List.find?_filter]
  split
  · next h => subst h; simp
  · next h =>
    congr 2
    funext e
    by_cases he : e.1 = k'
    · subst he; simp [bne, Key.rank_eq_iff, Ne.symm h]
    · simp [Key.rank_eq_iff, he]

theorem mem_entries_iff : (k, v) ∈ t.entries ↔ t.get? k = some v := by
  obtain ⟨l, hs⟩ := t
  simp only [get?]
  induction l with
  | nil => simp
  | cons e l ih =>
    obtain ⟨he, hl⟩ := List.pairwise_cons.mp hs
    rw [List.find?_cons]
    split
    · next h =>
      have hk : e.1 = k := Key.rank_inj (by simpa using h)
      constructor
      · intro hm
        rcases List.mem_cons.mp hm with rfl | hm
        · simp
        · have := he _ hm; simp [hk] at this
      · intro hv
        have hv : e.2 = v := by simpa using hv
        simp [← hk, ← hv]
    · next h =>
      rw [List.mem_cons, ih hl, or_iff_right]
      rintro rfl
      simp at h

theorem mem_values : v ∈ t.values ↔ ∃ k, t.get? k = some v := by
  simp only [values, List.mem_map, Prod.exists, exists_eq_right, mem_entries_iff]

/-- Values that tell the key they are filed under tell different ones. -/
theorem nodup_map_values {f : α → κ} (hfiled : ∀ k v, t.get? k = some v → f v = k) : (t.values.map f).Nodup := by
  refine List.pairwise_map.mpr (List.pairwise_map.mpr (t.sorted.imp_of_mem fun {x y} hx hy hlt he => ?_))
  rw [hfiled x.1 x.2 (mem_entries_iff.mp hx), hfiled y.1 y.2 (mem_entries_iff.mp hy)] at he
  rw [he] at hlt
  exact Nat.lt_irrefl _ hlt

/-- Two tables with the same look-ups are the same table. -/
theorem ext_get? (h : ∀ k, t.get? k = u.get? k) : t = u := by
  obtain ⟨l, hl⟩ := t
  obtain ⟨m, hm⟩ := u
  have hmem : ∀ x, x ∈ l ↔ x ∈ m := fun x => by
    have ht := mem_entries_iff (t := ⟨l, hl⟩) (k := x.1) (v := x.2)
    have hu := mem_entries_iff (t := ⟨m, hm⟩) (k := x.1) (v := x.2)
    exact (ht.trans (by rw [h x.1])).trans hu.symm
  have hlm : l = m := by
    clear h
    induction l generalizing m with
    | nil =>
      cases m with
      | nil => rfl
      | cons y m => exact absurd ((hmem y).mpr (by simp)) (by simp)
    | cons x l ih =>
      cases m with
      | nil => exact absurd ((hmem x).mp (by simp)) (by simp)
      | cons y m =>
        obtain ⟨hx, hl'⟩ := List.pairwise_cons.mp hl
        obtain ⟨hy, hm'⟩ := List.pairwise_cons.mp hm
        have hxy : x = y := by
          rcases List.mem_cons.mp ((hmem x).mp (by simp)) with h1 | h1
          · exact h1
          · rcases List.mem_cons.mp ((hmem y).mpr (by simp)) with h2 | h2
            · exact h2.symm
            · exact absurd (hy x h1) (Nat.lt_asymm (hx y h2))
        subst hxy
        have htail : l = m := by
          refine ih hl' m hm' fun z => ?_
          have := hmem z
          simp only [List.mem_cons] at this
          constructor
          · intro hz
            rcases this.mp (.inr hz) with rfl | h'
            · exact absurd (hx z hz) (Nat.lt_irrefl _)
            · exact h'
          · intro hz
            rcases this.mpr (.inr hz) with rfl | h'
            · exact absurd (hy z hz) (Nat.lt_irrefl _)
            · exact h'
        rw [htail]
  subst hlm
  rfl

end Table

/-- A set of keys, in their order. -/
abbrev KeySet (κ : Type) [Key κ] := Table κ Unit

end Paddock
