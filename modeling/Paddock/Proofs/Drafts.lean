import Mathlib.Data.List.Nodup
import Mathlib.Data.List.Perm.Subperm
import Paddock.Proofs.Change
import Paddock.Proofs.Paths

/-! Files that are still being written: a draft is at a place of its own, and leaves no trace when it is given up. -/
namespace Paddock.Disk

variable {d d' : Disk} {p q : Place} {name : List Char} {rest names : List (List Char)}
  {path directory content : String}

/-! ### A place for a draft -/

theorem mem_of_mem_enclosing (h : names ∈ Place.enclosing rest) (hname : name ∈ names) : name ∈ rest := by
  induction rest with
  | nil => cases h
  | cons first rest ih =>
    rcases List.mem_cons.mp h with rfl | h
    · exact List.mem_cons_of_mem first hname
    · exact List.mem_cons_of_mem first (ih h)

/-- What there is at a place, or in it, has the names of the place. -/
theorem mem_names_of_lookup? (hp : p.isOuter = false) (h : d.lookup? p ≠ none) (hname : name ∈ p.names) :
    name ∈ d.names := by
  unfold lookup? at h
  simp only [hp, Bool.false_eq_true, if_false] at h
  cases hfind : d.entries.find? (·.1 == p) with
  | some e =>
    have hplace : e.1 = p := by simpa using List.find?_some hfind
    rw [← hplace] at hname
    exact List.mem_flatMap.mpr ⟨e, List.mem_of_find?_eq_some hfind, hname⟩
  | none =>
    simp only [hfind, ne_eq, ite_eq_right_iff, reduceCtorEq, imp_false, Bool.not_eq_true, Bool.not_eq_false] at h
    obtain ⟨e, he, hwithin⟩ := List.any_eq_true.mp h
    simp only [Place.isWithin, Bool.and_eq_true, List.contains_iff_mem] at hwithin
    exact List.mem_flatMap.mpr ⟨e, he, mem_of_mem_enclosing hwithin.2 hname⟩

theorem isOuter_marked (hp : p.names = name :: rest) (hname : 2 < name.length) (n : Nat) :
    (p.marked n).isOuter = false := by
  have hup : name ++ List.replicate n '~' ≠ Path.up := by
    intro h
    have hlength := congrArg List.length h
    simp only [List.length_append, List.length_replicate, Path.up, List.length_cons, List.length_nil] at hlength
    omega
  simp [Place.isOuter, Place.marked, hp, hup]

theorem marks_injective (name : List Char) : Function.Injective fun n => name ++ List.replicate n '~' := by
  intro m n h
  simpa using congrArg List.length h

/-- There are more marked places than names, so one of them is free. -/
theorem lookup?_free (hp : p.names = name :: rest) (hname : 2 < name.length) : d.lookup? (d.free p) = none := by
  unfold free
  cases hfind : (List.range (d.names.length + 1)).find? fun n => (d.lookup? (p.marked n)).isNone with
  | some n => simpa using List.find?_some hfind
  | none =>
    have htaken (n : Nat) (hn : n ∈ List.range (d.names.length + 1)) : name ++ List.replicate n '~' ∈ d.names := by
      have hsome := List.find?_eq_none.mp hfind n hn
      refine mem_names_of_lookup? (isOuter_marked hp hname n) (by simpa using hsome) ?_
      simp [Place.marked, hp]
    have hsubset : (List.range (d.names.length + 1)).map (fun n => name ++ List.replicate n '~') ⊆ d.names :=
      fun _ hmem => List.forall_mem_map.mpr htaken _ hmem
    have hnodup := (List.nodup_range (n := d.names.length + 1)).map (marks_injective name)
    have hlength := (List.subperm_of_subset hnodup hsubset).length_le
    rw [List.length_map, List.length_range] at hlength
    omega

/-! ### Putting and removing -/

theorem isOuter_of_free (h : d.lookup? p = none) : p.isOuter = false := by
  cases hp : p.isOuter with
  | false => rfl
  | true =>
    rw [lookup?_outer d hp] at h
    cases h

theorem remove_of_free (h : d.lookup? p = none) : d.remove p = d := by
  have hnone : d.entries.find? (·.1 == p) = none := by
    unfold lookup? at h
    simp only [isOuter_of_free h, Bool.false_eq_true, if_false] at h
    cases hfind : d.entries.find? (·.1 == p) with
    | none => rfl
    | some e =>
      rw [hfind] at h
      cases h
  have hothers := List.find?_eq_none.mp hnone
  obtain ⟨entries⟩ := d
  refine congrArg Disk.mk (List.filter_eq_self.mpr fun e he => ?_)
  simpa using hothers e he

theorem remove_put (d : Disk) (p : Place) (entry : DiskEntry) : (d.put p entry).remove p = d.remove p := by
  simp [remove, put]

theorem put_put (d : Disk) (p : Place) (entry other : DiskEntry) : (d.put p entry).put p other = d.put p other := by
  simp [put]

/-- A draft that is moved is then nowhere else. -/
theorem move_put (h : d.lookup? p = none) (entry : DiskEntry) (q : Place) :
    (d.put p entry).move p q = d.put q entry := by
  rw [move, lookup?_put_self d entry (isOuter_of_free h)]
  dsimp only
  rw [remove_put, remove_of_free h]

theorem lookup?_put_file (hne : q ≠ p) (entry : DiskEntry) (h : d.lookup? q = some (.file content)) :
    (d.put p entry).lookup? q = some (.file content) := by
  unfold lookup? at h ⊢
  rw [find?_put_of_ne d entry hne]
  split at h
  · cases h
  next hout =>
    rw [if_neg hout]
    cases hfind : d.entries.find? (·.1 == q) with
    | some e =>
      rw [hfind] at h
      exact h
    | none =>
      rw [hfind] at h
      dsimp only at h
      split at h <;> cases h

theorem free_not_directory (h : d.lookup? p = none) : d.lookup? p ≠ some .directory := by
  rw [h]
  exact nofun

/-- What is put at a free place is in the way of no path. -/
theorem read_put_of_free (h : d.lookup? p = none) (entry : DiskEntry) (hread : d.read path = .ok content) :
    (d.put p entry).read path = .ok content := by
  obtain ⟨q, hlocate, hfile⟩ := read_eq_ok_iff.mp hread
  have hne : q ≠ p := by
    rintro rfl
    rw [h] at hfile
    cases hfile
  exact read_eq_ok_iff.mpr
    ⟨q, locate_put entry (free_not_directory h) hlocate, lookup?_put_file hne entry hfile⟩

/-! ### A draft from its beginning to its end -/

/-- A draft is begun where there was nothing. -/
theorem free_of_placeDraft (h : d.placeDraft directory = .ok p) : d.lookup? p = none := by
  obtain ⟨q, hlocate, rfl⟩ := map_eq_ok_iff.mp h
  obtain ⟨-, -, -, hwalk⟩ := locate_eq_ok_iff.mp hlocate
  rw [Path.segments_draftIn] at hwalk
  obtain ⟨r, -, hstep⟩ := walk_concat.mp hwalk
  obtain ⟨-, -, rfl⟩ := step_eq_ok_iff.mp hstep
  have hnames : (r.enter Path.draftName).names = Path.draftName :: r.names := rfl
  exact lookup?_free hnames (by decide)

theorem createDraft_ok_iff : createDraft directory d = .ok p d' ↔
    d.placeDraft directory = .ok p ∧ d.put p (.file "") = d' := by
  simp only [createDraft, Change.check_bind_ok_iff, Change.modify_bind_ok_iff, Change.pure_ok_iff]
  constructor
  · rintro ⟨_, hplace, rfl, rfl⟩
    exact ⟨hplace, rfl⟩
  · rintro ⟨hplace, rfl⟩
    exact ⟨p, hplace, rfl, rfl⟩

theorem clean_createDraft (directory : String) (d : Disk) : (createDraft directory).Clean d :=
  Change.clean_check_bind fun _ _ => ((Change.succeeds_modify _).bind fun _ _ _ => Change.succeeds_pure _).clean

theorem persist_ok_iff {u : Unit} : persist p path d = .ok u d' ↔ ∃ q, d.target path = .ok q ∧ d.move p q = d' := by
  simp only [persist, rename, Change.tidied_ok_iff, Change.check_bind_ok_iff, Change.modify_ok_iff]

/-- A draft that cannot take its place is removed. -/
theorem eq_remove_of_persist {fault : SystemFault} (h : persist p path d = .error fault d') : d' = d.remove p := by
  have hrename : (rename p path).Clean d := Change.clean_check_bind fun _ _ => (Change.succeeds_modify _).clean
  exact hrename.tidied h

end Paddock.Disk
