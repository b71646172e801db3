import Paddock.Json.Decode
import Paddock.Table

/-!
Lists of tokens without repetition, with the position of each token at hand. A token is taken out by
moving the last one into its place, so the list never has gaps; `items_remove` says where each token
stands afterwards.
-/
namespace Paddock

structure TokenIndex (κ : Type) [Key κ] where
  items : List κ
  positions : Table κ Nat
  position_iff : ∀ id i, positions.get? id = some i ↔ items[i]? = some id

namespace TokenIndex

variable {κ : Type} [Key κ] {t u : TokenIndex κ} {id : κ}

theorem ext_items (h : t.items = u.items) : t = u := by
  obtain ⟨ti, tp, ht⟩ := t
  obtain ⟨ui, up, hu⟩ := u
  subst h
  have : tp = up := by
    refine Table.ext_get? fun id => ?_
    cases hp : tp.get? id with
    | some i => exact ((hu id i).mpr ((ht id i).mp hp)).symm
    | none =>
      cases hq : up.get? id with
      | none => rfl
      | some i => rw [(ht id i).mpr ((hu id i).mp hq)] at hp; cases hp
  subst this
  rfl

instance [DecidableEq κ] : DecidableEq (TokenIndex κ) := fun t u =>
  decidable_of_iff (@Eq (List κ) t.items u.items) ⟨ext_items, congrArg _⟩

def empty : TokenIndex κ := ⟨[], Table.empty, by simp [Table.get?_empty]⟩

instance : Inhabited (TokenIndex κ) := ⟨empty⟩

def position? (t : TokenIndex κ) (id : κ) : Option Nat := t.positions.get? id

def contains (t : TokenIndex κ) (id : κ) : Bool := t.positions.contains id

def size (t : TokenIndex κ) : Nat := t.items.length

def isEmpty (t : TokenIndex κ) : Bool := t.items.isEmpty

theorem contains_eq_true_iff : t.contains id = true ↔ id ∈ t.items := by
  rw [contains, Table.contains, Option.isSome_iff_exists, List.mem_iff_getElem?]
  exact exists_congr fun i => t.position_iff id i

theorem lt_of_position (h : t.positions.get? id = some i) : i < t.items.length := by
  have := (t.position_iff id i).mp h
  exact (List.getElem?_eq_some_iff.mp this).1

/-- Each token stands at one place only. -/
theorem position_unique {i j : Nat} (hi : t.items[i]? = some id) (hj : t.items[j]? = some id) :
    i = j := by
  have hi := (t.position_iff id i).mpr hi
  have hj := (t.position_iff id j).mpr hj
  simpa [hi] using hj

/-- Adds a token at the end, unless it is there. -/
def insert (t : TokenIndex κ) (id : κ) : TokenIndex κ :=
  if h : t.contains id = true then t
  else
    { items := t.items ++ [id]
      positions := t.positions.insert id t.items.length
      position_iff := by
        intro k i
        have hn : id ∉ t.items := fun hm => h (contains_eq_true_iff.mpr hm)
        rw [Table.get?_insert, List.getElem?_append]
        by_cases hk : id = k
        · subst hk
          simp only [if_true, Option.some.injEq]
          split
          · next hi =>
            constructor
            · rintro rfl; omega
            · intro hm; exact absurd (List.mem_of_getElem? hm) hn
          · next hi =>
            constructor
            · rintro rfl; simp
            · intro hm
              have := (List.getElem?_eq_some_iff.mp hm).1
              simp at this; omega
        · rw [if_neg hk, t.position_iff]
          split
          · rfl
          · next hi =>
            constructor
            · intro hm; exact absurd (List.getElem?_eq_some_iff.mp hm).1 hi
            · intro hm
              obtain ⟨hlt, he⟩ := List.getElem?_eq_some_iff.mp hm
              exact absurd (by simpa using he) hk }

/-- The list with its last item moved to place `i`. -/
def moveLast (items : List κ) (i : Nat) (last : κ) : List κ :=
  (items.set i last).dropLast

omit [Key κ] in
theorem getElem?_moveLast {items : List κ} {i j : Nat} {last : κ} :
    (moveLast items i last)[j]? =
      if j + 1 < items.length then if i = j then some last else items[j]? else none := by
  rw [moveLast, List.getElem?_dropLast, List.length_set]
  by_cases hj : j < items.length - 1
  · rw [if_pos hj, if_pos (by omega), List.getElem?_set]
    split
    · rw [if_pos (by omega)]
    · rfl
  · rw [if_neg hj, if_neg (by omega)]

/-- The position of the last token becomes the one given up, all others stay. -/
theorem position_iff_remove (i : Nat) (hi : t.positions.get? id = some i) (last : κ)
    (hl : t.items[t.items.length - 1]? = some last) (k : κ) (j : Nat) :
    ((if i = t.items.length - 1 then t.positions.erase id
      else (t.positions.erase id).insert last i).get? k = some j) ↔
      (moveLast t.items i last)[j]? = some k := by
  have hit : i < t.items.length := lt_of_position hi
  have hid := (t.position_iff id i).mp hi
  rw [getElem?_moveLast]
  split
  · next he =>
    subst he
    have : last = id := by rw [hid] at hl; exact (Option.some.inj hl).symm
    subst this
    rw [Table.get?_erase]
    split
    · next hk =>
      subst hk
      simp only [reduceCtorEq, false_iff]
      intro hm
      split at hm
      · split at hm
        · omega
        · have := position_unique hm hid; omega
      · cases hm
    · next hk =>
      rw [t.position_iff]
      split
      · rw [if_neg (by omega)]
      · next hj =>
        constructor
        · intro hm
          have hlt := (List.getElem?_eq_some_iff.mp hm).1
          have : j = t.items.length - 1 := by omega
          rw [this, hid] at hm
          exact absurd (Option.some.inj hm) hk
        · intro hm; cases hm
  · next he =>
    have hne : last ≠ id := fun h => he (position_unique (h ▸ hid) hl)
    rw [Table.get?_insert]
    split
    · next hk =>
      subst hk
      simp only [Option.some.injEq]
      constructor
      · rintro rfl; rw [if_pos (by omega), if_pos rfl]
      · intro hm
        split at hm
        · split at hm
          · assumption
          · have := position_unique hm hl; omega
        · cases hm
    · next hk =>
      rw [Table.get?_erase]
      split
      · next hk' =>
        subst hk'
        simp only [reduceCtorEq, false_iff]
        intro hm
        split at hm
        · split at hm
          · exact hk (Option.some.inj hm)
          · next hij => exact hij (position_unique hid hm)
        · cases hm
      · next hk' =>
        rw [t.position_iff]
        split
        · split
          · next hij =>
            subst hij
            constructor
            · intro hm; rw [hid] at hm; exact absurd (Option.some.inj hm) hk'
            · intro hm; exact absurd (Option.some.inj hm) hk
          · rfl
        · next hj =>
          constructor
          · intro hm
            have hlt := (List.getElem?_eq_some_iff.mp hm).1
            have : j = t.items.length - 1 := by omega
            rw [this, hl] at hm
            exact absurd (Option.some.inj hm) hk
          · intro hm; cases hm

/-- Takes a token out, if it is there; the last one moves into its place. -/
def remove (t : TokenIndex κ) (id : κ) : TokenIndex κ :=
  match hi : t.positions.get? id with
  | none => t
  | some i =>
    match hl : t.items[t.items.length - 1]? with
    | none => t
    | some last =>
      { items := moveLast t.items i last
        positions :=
          if i = t.items.length - 1 then t.positions.erase id
          else (t.positions.erase id).insert last i
        position_iff := position_iff_remove i hi last hl }

/-- The items one after the other, later repetitions left out. -/
def ofList (items : List κ) : TokenIndex κ :=
  items.foldl insert empty

theorem items_insert (t : TokenIndex κ) (id : κ) :
    (t.insert id).items = if id ∈ t.items then t.items else t.items ++ [id] := by
  unfold insert
  split
  · next h => rw [if_pos (contains_eq_true_iff.mp h)]
  · next h => rw [if_neg fun hm => h (contains_eq_true_iff.mpr hm)]

theorem items_remove_of_notMem (h : id ∉ t.items) : (t.remove id).items = t.items := by
  unfold remove
  split
  · rfl
  · next i hi =>
    exact absurd (List.mem_of_getElem? ((t.position_iff id i).mp hi)) h

theorem items_remove {i : Nat} (h : t.items[i]? = some id) :
    (t.remove id).items = moveLast t.items i (t.items.getLast (List.ne_nil_of_mem (List.mem_of_getElem? h))) := by
  have hne := List.ne_nil_of_mem (List.mem_of_getElem? h)
  have hp := (t.position_iff id i).mpr h
  have hlast : t.items[t.items.length - 1]? = some (t.items.getLast hne) := by
    rw [← List.getLast?_eq_getElem?, List.getLast?_eq_some_getLast hne]
  unfold remove
  split
  · next hn => rw [hp] at hn; cases hn
  · next j hj =>
    rw [hp] at hj
    obtain rfl := Option.some.inj hj
    split
    · next hn => rw [hlast] at hn; cases hn
    · next last hl =>
      rw [hlast] at hl
      show moveLast t.items i last = _
      rw [← Option.some.inj hl]

instance [Json.Encode κ] : Json.Encode (TokenIndex κ) := ⟨fun t => Json.encode t.items⟩

instance [Json.Decode κ] : Json.Decode (TokenIndex κ) :=
  ⟨fun j => (Json.decode? j).map ofList⟩

end TokenIndex

end Paddock
