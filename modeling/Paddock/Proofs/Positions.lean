import Mathlib.Data.Finset.Basic
import Mathlib.Data.Finset.Dedup
import Paddock.Proofs.Json.Keys

/-! A list and the positions in it, kept each for itself, never come apart, and together are a set. -/
namespace Paddock

/-- What is asked of an index. -/
inductive IndexAction (κ : Type) where
  | insert (id : κ)
  | remove (id : κ)
  | contains (id : κ)

section Runs

variable {κ σ τ : Type} {step : IndexAction κ → σ → Option (Bool × σ)} {step' : IndexAction κ → τ → Option (Bool × τ)}

/-- Takes actions one after the other and collects the answers, as long as every action has one. -/
def answersOf (step : IndexAction κ → σ → Option (Bool × σ)) : σ → List (IndexAction κ) → Option (List Bool × σ)
  | s, [] => some ([], s)
  | s, action :: rest => do
    let (answer, next) ← step action s
    let (answers, last) ← answersOf step next rest
    return (answer :: answers, last)

/-- What is seen of each step is seen of the whole run. -/
theorem answersOf_map (f : σ → τ) (h : ∀ action s, step' action (f s) = (step action s).map fun r => (r.1, f r.2))
    (s : σ) (actions : List (IndexAction κ)) :
    answersOf step' (f s) actions = (answersOf step s actions).map fun r => (r.1, f r.2) := by
  induction actions generalizing s with
  | nil => rfl
  | cons action rest ih =>
    simp only [answersOf, h]
    cases step action s with
    | none => rfl
    | some result =>
      have hrest := ih result.2
      simp only [Option.map_some, Option.bind_eq_bind, Option.bind_some, hrest]
      cases answersOf step result.2 rest <;> rfl

/-- Steps that always have an answer are never the end of a run. -/
theorem exists_answersOf (next : IndexAction κ → σ → Bool × σ) (s : σ) (actions : List (IndexAction κ)) :
    ∃ answers last, answersOf (fun action s => some (next action s)) s actions = some (answers, last) := by
  induction actions generalizing s with
  | nil => exact ⟨[], s, rfl⟩
  | cons action rest ih =>
    obtain ⟨answers, last, hrest⟩ := ih (next action s).2
    refine ⟨(next action s).1 :: answers, last, ?_⟩
    simp only [answersOf, Option.bind_eq_bind, Option.bind_some, hrest, pure]

end Runs

variable {κ : Type} [Key κ] {id : κ} {i : Nat}

/-! ### The two halves -/

/-- The list and the positions of an index, with nothing to say that they agree. -/
structure Halves (κ : Type) [Key κ] where
  items : List κ
  positions : Table κ Nat

namespace Halves

def empty : Halves κ := ⟨[], Table.empty⟩

def insert (h : Halves κ) (id : κ) : Bool × Halves κ :=
  if h.positions.contains id then (false, h)
  else (true, ⟨h.items ++ [id], h.positions.insert id h.items.length⟩)

/-- An empty list has no last place. -/
def lastPlace? (items : List κ) : Option Nat :=
  if items.length = 0 then none else some (items.length - 1)

/-- Only a place inside of the list can be written. -/
def write? (items : List κ) (i : Nat) (id : κ) : Option (List κ) :=
  if i < items.length then some (items.set i id) else none

/-- Takes a token out by moving the last one into its place. There is no result where the list does not have the
place that is asked for. -/
def remove? (h : Halves κ) (id : κ) : Option (Bool × Halves κ) :=
  match h.positions.get? id with
  | none => some (false, h)
  | some position => do
    let positions := h.positions.erase id
    let last ← lastPlace? h.items
    if position = last then return (true, ⟨h.items.dropLast, positions⟩)
    else
      let moved ← h.items[last]?
      let items ← write? h.items position moved
      return (true, ⟨items.dropLast, positions.insert moved position⟩)

def perform : IndexAction κ → Halves κ → Option (Bool × Halves κ)
  | .insert id, h => some (h.insert id)
  | .remove id, h => h.remove? id
  | .contains id, h => some (h.positions.contains id, h)

/-- A list is loaded token by token. The one of no tokens gives a new index. -/
def ofList (items : List κ) : Halves κ := items.foldl (fun h id => (h.insert id).2) empty

/-- The positions are those of the list, and every action does to the list what is expected. Loading the list gives
both halves again, so what is done next cannot tell the difference. -/
structure Sound (h : Halves κ) : Prop where
  position_iff : ∀ id i, h.positions.get? id = some i ↔ h.items[i]? = some id
  nodup : h.items.Nodup
  appended : ∀ id, id ∉ h.items → ∃ after, h.insert id = (true, after) ∧ after.items = h.items ++ [id]
  repeated : ∀ id, id ∈ h.items → h.insert id = (false, h)
  moved : ∀ id i, h.items[i]? = some id → ∃ last after, h.items.getLast? = some last ∧
    h.remove? id = some (true, after) ∧ after.items = (h.items.set i last).dropLast
  missing : ∀ id, id ∉ h.items → h.remove? id = some (false, h)
  reloaded : ofList h.items = h

/-- The last token is there to be moved, and moving it onto itself changes nothing. -/
theorem remove?_of_found {h : Halves κ} {last : κ} (hi : h.positions.get? id = some i) (hplace : i < h.items.length)
    (hlast : h.items[h.items.length - 1]? = some last) :
    h.remove? id = some (true,
      { items := TokenIndex.moveLast h.items i last
        positions :=
          if i = h.items.length - 1 then h.positions.erase id
          else (h.positions.erase id).insert last i }) := by
  have hend : lastPlace? h.items = some (h.items.length - 1) := if_neg (by omega)
  have hwrite : write? h.items i last = some (h.items.set i last) := if_pos hplace
  simp only [remove?, hi, hend, Option.bind_eq_bind, Option.bind_some]
  by_cases he : i = h.items.length - 1
  · subst he
    obtain ⟨hlt, rfl⟩ := List.getElem?_eq_some_iff.mp hlast
    simp only [if_true, TokenIndex.moveLast, List.set_getElem_self, pure]
  · simp only [if_neg he, hlast, hwrite, Option.bind_some, TokenIndex.moveLast, pure]

end Halves

/-! ### The set -/

/-- The actions on a finite set. The answer is whether there was something to do, or to find. -/
def onSet : IndexAction κ → Finset κ → Bool × Finset κ
  | .insert id, s => (decide (id ∉ s), insert id s)
  | .remove id, s => (decide (id ∈ s), s.erase id)
  | .contains id, s => (decide (id ∈ s), s)

/-! ### The index -/

namespace TokenIndex

variable {t : TokenIndex κ}

def halves (t : TokenIndex κ) : Halves κ := ⟨t.items, t.positions⟩

def perform : IndexAction κ → TokenIndex κ → Bool × TokenIndex κ
  | .insert id, t => (!t.contains id, t.insert id)
  | .remove id, t => (t.contains id, t.remove id)
  | .contains id, t => (t.contains id, t)

theorem halves_insert (t : TokenIndex κ) (id : κ) : t.halves.insert id = (!t.contains id, (t.insert id).halves) := by
  cases hid : t.contains id with
  | true =>
    have hfound : t.positions.contains id = true := hid
    have hsame : t.insert id = t := dif_pos hid
    rw [hsame, Halves.insert, halves, if_pos hfound]
    rfl
  | false =>
    have hfound : t.positions.contains id = false := hid
    have hnew : t.insert id = _ := dif_neg (by rw [hid]; exact Bool.false_ne_true)
    rw [hnew, Halves.insert, halves, hfound]
    rfl

/-- A token is taken out of a place that the list has, and the list has a last place, too. -/
theorem halves_remove (t : TokenIndex κ) (id : κ) :
    t.halves.remove? id = some (t.contains id, (t.remove id).halves) := by
  unfold remove
  split
  · next hnone =>
    have habsent : t.contains id = false := by rw [contains, Table.contains, hnone, Option.isSome_none]
    simp only [habsent, Halves.remove?, halves, hnone]
  · next i hi =>
    have hpresent : t.contains id = true := by rw [contains, Table.contains, hi, Option.isSome_some]
    have hplace := lt_of_position hi
    split
    · next hl =>
      have hend := List.getElem?_eq_none_iff.mp hl
      omega
    · next last hl =>
      rw [hpresent]
      exact Halves.remove?_of_found hi hplace hl

theorem halves_perform (action : IndexAction κ) (t : TokenIndex κ) :
    t.halves.perform action = (some (t.perform action)).map fun r => (r.1, r.2.halves) := by
  cases action with
  | insert id => exact congrArg some (halves_insert t id)
  | remove id => exact halves_remove t id
  | contains id => rfl

theorem halves_ofList (items : List κ) : Halves.ofList items = (ofList items).halves := by
  suffices h : ∀ t : TokenIndex κ,
      items.foldl (fun h id => (h.insert id).2) t.halves = (items.foldl insert t).halves from h empty
  induction items with
  | nil => exact fun _ => rfl
  | cons id items ih =>
    intro t
    rw [List.foldl_cons, List.foldl_cons, halves_insert]
    exact ih (t.insert id)

theorem sound_halves (t : TokenIndex κ) : t.halves.Sound where
  position_iff := t.position_iff
  nodup := t.nodup_items
  appended id hid := by
    have hnew : t.contains id = false := by rwa [← Bool.not_eq_true, contains_eq_true_iff]
    refine ⟨(t.insert id).halves, ?_, ?_⟩
    · rw [halves_insert, hnew]
      rfl
    · exact (items_insert t id).trans (if_neg hid)
  repeated id hid := by
    have hold := contains_eq_true_iff.mpr hid
    have hsame : t.insert id = t := dif_pos hold
    rw [halves_insert, hsame, hold]
    rfl
  moved id i hi := by
    have hid := List.mem_of_getElem? hi
    have hne := List.ne_nil_of_mem hid
    refine ⟨t.items.getLast hne, (t.remove id).halves, List.getLast?_eq_some_getLast hne, ?_, items_remove hi⟩
    rw [halves_remove, contains_eq_true_iff.mpr hid]
  missing id hid := by
    have habsent : t.contains id = false := by rwa [← Bool.not_eq_true, contains_eq_true_iff]
    rw [halves_remove, habsent, ext_items (items_remove_of_notMem hid)]
  reloaded := (halves_ofList t.items).trans (congrArg halves (ofList_items t))

def members (t : TokenIndex κ) : Finset κ := t.items.toFinset

theorem mem_members : id ∈ t.members ↔ id ∈ t.items := List.mem_toFinset

theorem contains_eq_decide (t : TokenIndex κ) (id : κ) : t.contains id = decide (id ∈ t.members) :=
  Bool.eq_iff_iff.mpr (contains_eq_true_iff.trans (mem_members.symm.trans decide_eq_true_iff.symm))

theorem members_perform (action : IndexAction κ) (t : TokenIndex κ) :
    some (onSet action t.members) = (some (t.perform action)).map fun r => (r.1, r.2.members) := by
  refine congrArg some ?_
  cases action with
  | insert id =>
    refine Prod.ext ?_ (Finset.ext fun k => ?_)
    · exact decide_not.trans (congrArg not (contains_eq_decide t id).symm)
    · show k ∈ Insert.insert id t.members ↔ k ∈ (t.insert id).members
      rw [Finset.mem_insert, mem_members, mem_members, mem_insert, eq_comm]
  | remove id =>
    refine Prod.ext (contains_eq_decide t id).symm (Finset.ext fun k => ?_)
    show k ∈ t.members.erase id ↔ k ∈ (t.remove id).members
    rw [Finset.mem_erase, mem_members, mem_members, mem_remove, ne_comm]
  | contains id => exact Prod.ext (contains_eq_decide t id).symm rfl

theorem members_ofList (items : List κ) : (ofList items).members = items.toFinset := by
  suffices h : ∀ t : TokenIndex κ, ∀ k, k ∈ (items.foldl insert t).items ↔ k ∈ t.items ∨ k ∈ items by
    refine Finset.ext fun k => ?_
    rw [mem_members, List.mem_toFinset]
    exact (h empty k).trans (or_iff_right List.not_mem_nil)
  induction items with
  | nil => exact fun t k => (or_iff_left List.not_mem_nil).symm
  | cons id items ih =>
    intro t k
    rw [List.foldl_cons, ih, mem_insert, List.mem_cons, or_assoc, or_left_comm, eq_comm]

/-! ### Whatever is done -/

/-- An index that is loaded from any list and changed in any way has had an answer for everything, the same as the
set of its tokens gives, and its list and positions still agree. -/
theorem refines_set (items : List κ) (actions : List (IndexAction κ)) :
    ∃ (answers : List Bool) (t : TokenIndex κ),
      answersOf Halves.perform (Halves.ofList items) actions = some (answers, t.halves) ∧
      answersOf (fun action (t : TokenIndex κ) => some (t.perform action)) (ofList items) actions = some (answers, t) ∧
      answersOf (fun action s => some (onSet action s)) items.toFinset actions = some (answers, t.items.toFinset) ∧
      t.halves.Sound := by
  obtain ⟨answers, t, hrun⟩ := exists_answersOf perform (ofList items) actions
  refine ⟨answers, t, ?_, hrun, ?_, sound_halves t⟩
  · rw [halves_ofList, answersOf_map halves halves_perform, hrun]
    rfl
  · rw [← members_ofList, answersOf_map members members_perform, hrun]
    rfl

end TokenIndex

end Paddock
