import Mathlib.Data.List.Induction
import Paddock.Leaderboard
import Paddock.Proofs.Registry

/-! The leaderboard beside all results it was told of: what it keeps for a car is the car's best result and
when that was first reached, and no two cars share a place. -/
namespace Paddock

/-- A result that was recorded. -/
structure RaceResult where
  car : CarId
  score : UInt64
deriving DecidableEq, Repr

namespace ScoreEntry

variable {a b c : ScoreEntry}

/-- The greater score is first, and of equal scores the one reached earlier. -/
def Before (a b : ScoreEntry) : Prop := b.score < a.score ∨ (a.score = b.score ∧ a.achieved < b.achieved)

instance : DecidableRel Before := fun a b =>
  inferInstanceAs (Decidable (b.score < a.score ∨ (a.score = b.score ∧ a.achieved < b.achieved)))

theorem precedes_iff : a.precedes b = true ↔
    b.score.toNat < a.score.toNat ∨ (a.score.toNat = b.score.toNat ∧ a.achieved.toNat ≤ b.achieved.toNat) := by
  simp only [precedes, Bool.or_eq_true, Bool.and_eq_true, decide_eq_true_eq, beq_iff_eq, UInt64.lt_iff_toNat_lt,
    UInt64.le_iff_toNat_le, ← UInt64.toNat_inj]

theorem before_iff : a.Before b ↔
    b.score.toNat < a.score.toNat ∨ (a.score.toNat = b.score.toNat ∧ a.achieved.toNat < b.achieved.toNat) := by
  simp only [Before, UInt64.lt_iff_toNat_lt, ← UInt64.toNat_inj]

theorem precedes_trans (a b c : ScoreEntry) (hab : a.precedes b = true) (hbc : b.precedes c = true) :
    a.precedes c = true := by
  rw [precedes_iff] at *
  omega

theorem precedes_total (a b : ScoreEntry) : (a.precedes b || b.precedes a) = true := by
  rw [Bool.or_eq_true, precedes_iff, precedes_iff]
  omega

theorem before_of_precedes (h : a.precedes b = true) (hne : a.achieved ≠ b.achieved) : a.Before b := by
  have hne : a.achieved.toNat ≠ b.achieved.toNat := fun he => hne (UInt64.toNat_inj.mp he)
  rw [precedes_iff] at h
  rw [before_iff]
  omega

theorem not_before_self (a : ScoreEntry) : ¬ a.Before a := by
  rw [before_iff]
  omega

theorem Before.asymm (h : a.Before b) : ¬ b.Before a := by
  rw [before_iff] at *
  omega

/-- In a list in strict order, as many stand before an entry as come before it. -/
theorem findIdx?_of_pairwise {l : List ScoreEntry} (hordered : l.Pairwise Before)
    (hcars : (l.map ScoreEntry.car).Nodup) (ha : a ∈ l) :
    l.findIdx? (·.car == a.car) = some (l.countP (·.Before a)) := by
  induction l with
  | nil => cases ha
  | cons b l ih =>
    obtain ⟨hb, hordered⟩ := List.pairwise_cons.mp hordered
    obtain ⟨hnew, hcars⟩ := List.nodup_cons.mp hcars
    rw [List.findIdx?_cons, List.countP_cons]
    rcases List.mem_cons.mp ha with rfl | ha
    · have hnone : l.countP (·.Before a) = 0 := by
        rw [List.countP_eq_zero]
        intro c hc
        simpa using (hb c hc).asymm
      simp [hnone, not_before_self]
    · have hne : b.car ≠ a.car := fun he => hnew (he ▸ List.mem_map_of_mem ha)
      rw [ih hordered hcars ha]
      simp [hne, hb a ha]

end ScoreEntry

namespace Leaderboard

variable {l l' : Leaderboard} {cars : CarRegistry} {caller operator : AccountId} {c d : CarId} {score : UInt64}
  {improved : Bool} {e : ScoreEntry} {rs : List RaceResult} {r : RaceResult}

/-- One more result is counted, and kept if it is the best of its car. -/
def counted (l : Leaderboard) (c : CarId) (score : UInt64) : Leaderboard :=
  { l with
    best := if l.improves c score then l.best.insert c ⟨c, score, l.nextResult⟩ else l.best
    nextResult := l.nextResult + 1 }

theorem isAuthorized_iff : l.isAuthorized caller operator = true ↔ caller = operator ∨ l.authority = some caller := by
  simp only [isAuthorized, Bool.or_eq_true, beq_iff_eq]

theorem checkResult_eq_ok_iff {u : Unit} : l.checkResult cars caller operator c = .ok u ↔
    l.isAuthorized caller operator = true ∧ ∃ car, cars.cars.get? c = some car := by
  simp only [checkResult, throw_bind, guard_eq_ok_iff, bind_eq_ok_iff, pure_eq_ok_iff,
    Workshop.carsLift_eq_ok_iff, CarRegistry.get_eq_ok_iff, Bool.not_eq_true', Bool.not_eq_false, and_true]

theorem recordInPlace_ok_iff : recordInPlace cars caller operator c score l = .ok improved l' ↔
    l.isAuthorized caller operator = true ∧ (∃ car, cars.cars.get? c = some car) ∧
      l.improves c score = improved ∧ l.counted c score = l' := by
  simp only [recordInPlace, Change.check_bind_ok_iff, Change.get_bind_ok_iff, Change.modify_bind_ok_iff,
    checkResult_eq_ok_iff, exists_and_left, exists_const, and_assoc, counted]
  refine and_congr_right fun _ => and_congr_right fun _ => ?_
  change (if l.improves c score then _ else _ : Change WorkshopError Leaderboard Bool) _ = _ ↔ _
  cases l.improves c score <;> simp [and_comm]

theorem record_eq_ok_iff : l.record cars caller operator c score = .ok (improved, l') ↔
    l.isAuthorized caller operator = true ∧ (∃ car, cars.cars.get? c = some car) ∧
      l.improves c score = improved ∧ l.counted c score = l' :=
  Change.outcome_ok_iff.trans recordInPlace_ok_iff

/-- A result that is refused is not counted. -/
theorem clean_record (cars : CarRegistry) (caller operator : AccountId) (c : CarId) (score : UInt64)
    (l : Leaderboard) : (recordInPlace cars caller operator c score).Clean l := by
  refine Change.clean_check_bind fun _ _ => Change.clean_get_bind (Change.Succeeds.clean ?_)
  refine (Change.succeeds_modify _).bind fun _ l' _ => ?_
  change (if l'.improves c score then _ else _ : Change WorkshopError Leaderboard Bool).Succeeds l'
  split
  · exact (Change.succeeds_modify _).bind fun _ _ _ => Change.succeeds_pure true
  · exact Change.succeeds_pure false

/-! ### What is kept for a car -/

/-- An entry tells of the greatest result of its car, and of the first time it was reached. -/
structure Best (rs : List RaceResult) (c : CarId) (e : ScoreEntry) : Prop where
  car_eq : e.car = c
  reached : rs[e.achieved.toNat]? = some ⟨c, e.score⟩
  greatest : ∀ r ∈ rs, r.car = c → r.score ≤ e.score
  first : ∀ (i : Nat) r, i < e.achieved.toNat → rs[i]? = some r → r.car = c → r.score < e.score

theorem Best.mem (h : Best rs c e) : ⟨c, e.score⟩ ∈ rs := List.mem_of_getElem? h.reached

theorem Best.lt_length (h : Best rs c e) : e.achieved.toNat < rs.length :=
  (List.getElem?_eq_some_iff.mp h.reached).1

/-- Another result of the car that is no better changes nothing, and one of another car neither. -/
theorem Best.extend (h : Best rs c e) (hr : r.car = c → r.score ≤ e.score) : Best (rs ++ [r]) c e := by
  have hlt := h.lt_length
  refine ⟨h.car_eq, ?_, ?_, ?_⟩
  · rw [List.getElem?_append_left hlt]
    exact h.reached
  · intro other hother
    rcases List.mem_append.mp hother with hother | hother
    · exact h.greatest other hother
    · rw [List.mem_singleton.mp hother]
      exact hr
  · intro i other hi hother
    rw [List.getElem?_append_left (by omega)] at hother
    exact h.first i other hi hother

theorem best_of_improvement {n : UInt64} (hn : n.toNat = rs.length)
    (hless : ∀ r ∈ rs, r.car = c → r.score < score) : Best (rs ++ [⟨c, score⟩]) c ⟨c, score, n⟩ := by
  refine ⟨rfl, ?_, ?_, ?_⟩
  · rw [hn, List.getElem?_concat_length]
  · intro r hr hcar
    rcases List.mem_append.mp hr with hr | hr
    · exact UInt64.le_of_lt (hless r hr hcar)
    · rw [List.mem_singleton.mp hr]
      exact UInt64.le_refl _
  · intro i r hi hr hcar
    change i < n.toNat at hi
    rw [List.getElem?_append_left (by omega)] at hr
    exact hless r (List.mem_of_getElem? hr) hcar

/-! ### All that was recorded -/

/-- What can be asked of a leaderboard. Whoever asks says which cars there are and who the operator is. -/
inductive Call where
  | appoint (authority : Option AccountId)
  | record (cars : CarRegistry) (caller operator : AccountId) (car : CarId) (score : UInt64)

/-- A leaderboard and the results it was told of, the oldest first. -/
structure Season where
  board : Leaderboard
  results : List RaceResult

namespace Season

variable {s : Season}

def opening : Season := ⟨.empty, []⟩

/-- A result that is refused is not one of the season, whatever is left of the leaderboard then. -/
def call (s : Season) : Call → Season
  | .appoint authority => { s with board := { s.board with authority } }
  | .record cars caller operator car score =>
    match recordInPlace cars caller operator car score s.board with
    | .ok _ board => ⟨board, s.results ++ [⟨car, score⟩]⟩
    | .error _ board => { s with board }

def run (s : Season) (calls : List Call) : Season := calls.foldl call s

/-- The leaderboard has counted every result, and keeps the best of every car that has one. -/
structure Exact (s : Season) : Prop where
  counted : s.board.nextResult.toNat = s.results.length
  best : ∀ c e, s.board.best.get? c = some e → Best s.results c e
  raced : ∀ c, s.board.best.get? c = none → ∀ r ∈ s.results, r.car ≠ c

theorem exact_opening : opening.Exact where
  counted := rfl
  best c e h := by cases h
  raced c _ r hr := by cases hr

theorem Exact.improves_iff (h : s.Exact) :
    s.board.improves c score = true ↔ ∀ r ∈ s.results, r.car = c → r.score < score := by
  unfold improves
  cases hbest : s.board.best.get? c with
  | none =>
    have hnone := h.raced c hbest
    constructor
    · intro _ r hr hcar
      exact absurd hcar (hnone r hr)
    · intro _
      rfl
  | some e =>
    have he := h.best c e hbest
    simp only [decide_eq_true_eq]
    constructor
    · intro hless r hr hcar
      exact UInt64.lt_of_le_of_lt (he.greatest r hr hcar) hless
    · intro hall
      exact hall ⟨c, e.score⟩ he.mem rfl

theorem Exact.counted_one (h : s.Exact) (hroom : s.results.length + 1 < UInt64.size) (c : CarId) (score : UInt64) :
    Exact ⟨s.board.counted c score, s.results ++ [⟨c, score⟩]⟩ := by
  have hcounted := h.counted
  refine ⟨?_, ?_, ?_⟩
  · rw [List.length_append, List.length_singleton, ← hcounted]
    apply toNat_next
    omega
  · intro d e hd
    simp only [Leaderboard.counted] at hd
    by_cases himproves : s.board.improves c score = true
    · have hless := h.improves_iff.mp himproves
      rw [if_pos himproves, Table.get?_insert] at hd
      split at hd
      · next hcd =>
        subst hcd
        cases hd
        exact best_of_improvement hcounted hless
      · next hcd =>
        exact (h.best d e hd).extend fun hcar => absurd hcar hcd
    · rw [if_neg himproves] at hd
      apply (h.best d e hd).extend
      rintro rfl
      simpa only [improves, hd, decide_eq_true_eq, UInt64.not_lt] using himproves
  · intro d hd
    simp only [Leaderboard.counted] at hd
    have hcd : c ≠ d ∧ s.board.best.get? d = none := by
      by_cases himproves : s.board.improves c score = true
      · rw [if_pos himproves, Table.get?_insert] at hd
        split at hd
        · cases hd
        · next hcd => exact ⟨hcd, hd⟩
      · rw [if_neg himproves] at hd
        refine ⟨?_, hd⟩
        rintro rfl
        exact himproves (by simp only [improves, hd])
    intro r hr
    rcases List.mem_append.mp hr with hr | hr
    · exact h.raced d hcd.2 r hr
    · rw [List.mem_singleton.mp hr]
      exact hcd.1

theorem length_le_call (s : Season) (call : Call) : s.results.length ≤ (s.call call).results.length := by
  cases call with
  | appoint authority => exact Nat.le_refl _
  | record cars caller operator c score =>
    simp only [Season.call]
    split
    · simp only [List.length_append, List.length_singleton]
      omega
    · exact Nat.le_refl _

theorem Exact.call (call : Call) (h : s.Exact) (hroom : (s.call call).results.length < UInt64.size) :
    (s.call call).Exact := by
  cases call with
  | appoint authority => exact ⟨h.counted, h.best, h.raced⟩
  | record cars caller operator c score =>
    simp only [Season.call] at hroom ⊢
    split at hroom
    · next improved board hrecord =>
      obtain ⟨_, _, _, rfl⟩ := recordInPlace_ok_iff.mp hrecord
      rw [List.length_append, List.length_singleton] at hroom
      exact h.counted_one hroom c score
    · next board hrecord =>
      obtain rfl := clean_record cars caller operator c score s.board _ _ hrecord
      exact h

theorem exact_run (calls : List Call) (hroom : (opening.run calls).results.length < UInt64.size) :
    (opening.run calls).Exact := by
  induction calls using List.reverseRecOn with
  | nil => exact exact_opening
  | append_singleton calls call ih =>
    simp only [run, List.foldl_append, List.foldl_cons, List.foldl_nil] at hroom ih ⊢
    have hbefore := length_le_call (calls.foldl Season.call opening) call
    exact (ih (by omega)).call call hroom

/-! ### The ranking -/

theorem mem_ranking_iff {l : Leaderboard} : e ∈ l.ranking ↔ ∃ c, l.best.get? c = some e := by
  rw [ranking, List.mem_mergeSort, Table.mem_values]

theorem Exact.get?_car (h : s.Exact) (he : e ∈ s.board.ranking) : s.board.best.get? e.car = some e := by
  obtain ⟨c, hc⟩ := mem_ranking_iff.mp he
  obtain rfl := (h.best c e hc).car_eq
  exact hc

theorem Exact.nodup_cars (h : s.Exact) : (s.board.ranking.map ScoreEntry.car).Nodup := by
  have hvalues : (s.board.best.values.map ScoreEntry.car).Nodup :=
    Table.nodup_map_values fun c e hc => (h.best c e hc).car_eq
  have hperm := (List.mergeSort_perm s.board.best.values ScoreEntry.precedes).map ScoreEntry.car
  exact hperm.nodup_iff.mpr hvalues

/-- A result is a result of one car, so what two cars keep they reached at different times. -/
theorem Exact.nodup_achieved (h : s.Exact) : (s.board.ranking.map ScoreEntry.achieved).Nodup := by
  refine List.pairwise_map.mpr ((List.pairwise_map.mp h.nodup_cars).imp_of_mem ?_)
  intro a b ha hb hcars hachieved
  have hresultA := (h.best a.car a (h.get?_car ha)).reached
  have hresultB := (h.best b.car b (h.get?_car hb)).reached
  rw [hachieved, hresultB] at hresultA
  have hsame := congrArg RaceResult.car (Option.some.inj hresultA)
  exact hcars hsame.symm

theorem Exact.pairwise_ranking (h : s.Exact) : s.board.ranking.Pairwise ScoreEntry.Before := by
  have hsorted : s.board.ranking.Pairwise fun a b => a.precedes b = true :=
    List.pairwise_mergeSort ScoreEntry.precedes_trans ScoreEntry.precedes_total s.board.best.values
  refine (hsorted.and (List.pairwise_map.mp h.nodup_achieved)).imp ?_
  rintro a b ⟨hprecedes, hne⟩
  exact ScoreEntry.before_of_precedes hprecedes hne

theorem Exact.raced_iff (h : s.Exact) : (∃ e, s.board.best.get? c = some e) ↔ ∃ r ∈ s.results, r.car = c := by
  constructor
  · rintro ⟨e, he⟩
    exact ⟨_, (h.best c e he).mem, rfl⟩
  · rintro ⟨r, hr, hcar⟩
    cases he : s.board.best.get? c with
    | none => exact absurd hcar (h.raced c he r hr)
    | some e => exact ⟨e, rfl⟩

theorem Exact.ranked_iff (h : s.Exact) : (∃ e ∈ s.board.ranking, e.car = c) ↔ ∃ r ∈ s.results, r.car = c := by
  rw [← h.raced_iff]
  constructor
  · rintro ⟨e, he, rfl⟩
    exact ⟨e, h.get?_car he⟩
  · rintro ⟨e, he⟩
    exact ⟨e, mem_ranking_iff.mpr ⟨c, he⟩, (h.best c e he).car_eq⟩

theorem Exact.bestScore?_eq_some_iff (h : s.Exact) : s.board.bestScore? c = some score ↔
    ⟨c, score⟩ ∈ s.results ∧ ∀ r ∈ s.results, r.car = c → r.score ≤ score := by
  rw [bestScore?, Option.map_eq_some_iff]
  constructor
  · rintro ⟨e, he, rfl⟩
    exact ⟨(h.best c e he).mem, (h.best c e he).greatest⟩
  · rintro ⟨hreached, hgreatest⟩
    obtain ⟨e, he⟩ := h.raced_iff.mpr ⟨_, hreached, rfl⟩
    have hbest := h.best c e he
    refine ⟨e, he, UInt64.le_antisymm ?_ ?_⟩
    · exact hgreatest _ hbest.mem rfl
    · exact hbest.greatest _ hreached rfl

/-- What a leaderboard has to say about the results it was told of. -/
structure Faithful (s : Season) : Prop where
  best_score : ∀ c score, s.board.bestScore? c = some score ↔
    ⟨c, score⟩ ∈ s.results ∧ ∀ r ∈ s.results, r.car = c → r.score ≤ score
  best : ∀ e ∈ s.board.ranking, Best s.results e.car e
  improved : ∀ cars caller operator c score improved board,
    s.board.record cars caller operator c score = .ok (improved, board) →
      (improved = true ↔ ∀ r ∈ s.results, r.car = c → r.score < score)
  ranked : ∀ c, (∃ e ∈ s.board.ranking, e.car = c) ↔ ∃ r ∈ s.results, r.car = c
  ranked_once : (s.board.ranking.map ScoreEntry.car).Nodup
  ordered : s.board.ranking.Pairwise ScoreEntry.Before
  achieved : (s.board.ranking.map ScoreEntry.achieved).Nodup
  rank : ∀ e ∈ s.board.ranking, s.board.rank? e.car = some (1 + s.board.ranking.countP (·.Before e))
  unranked : ∀ c, s.board.rank? c = none ↔ ∀ r ∈ s.results, r.car ≠ c
  top : ∀ n, s.board.top n = s.board.ranking.take n

theorem Exact.faithful (h : s.Exact) : s.Faithful where
  best_score _ _ := h.bestScore?_eq_some_iff
  best e he := h.best e.car e (h.get?_car he)
  improved cars caller operator c score improved board hrecord := by
    obtain ⟨_, _, rfl, _⟩ := record_eq_ok_iff.mp hrecord
    exact h.improves_iff
  ranked _ := h.ranked_iff
  ranked_once := h.nodup_cars
  ordered := h.pairwise_ranking
  achieved := h.nodup_achieved
  rank e he := by
    rw [rank?, ScoreEntry.findIdx?_of_pairwise h.pairwise_ranking h.nodup_cars he, Option.map_some, Nat.add_comm]
  unranked c := by
    rw [rank?, Option.map_eq_none_iff, List.findIdx?_eq_none_iff]
    constructor
    · intro hall r hr hcar
      obtain ⟨e, he, hcar⟩ := h.ranked_iff.mpr ⟨r, hr, hcar⟩
      simpa [hcar] using hall e he
    · intro hnone e he
      rw [beq_eq_false_iff_ne]
      intro hcar
      obtain ⟨r, hr, hcar⟩ := h.ranked_iff.mp ⟨e, he, hcar⟩
      exact hnone r hr hcar
  top _ := rfl

/-- As long as the results can be numbered, the leaderboard is right about all of them. -/
theorem faithful_run (calls : List Call) (hroom : (opening.run calls).results.length < UInt64.size) :
    (opening.run calls).Faithful :=
  (exact_run calls hroom).faithful

/-! ### A tie -/

namespace Tie

def referee : AccountId := ⟨List.replicate 32 0, List.length_replicate⟩

def starters : CarRegistry :=
  ((CarRegistry.new 100).addCar ⟨1⟩ referee "" (.replicate none)).addCar ⟨2⟩ referee "" (.replicate none)

/-- Car 2 reaches 90 before car 1 does, and car 3 does not exist. -/
def calls : List Call := [
  .record starters referee referee ⟨1⟩ 80,
  .record starters referee referee ⟨2⟩ 90,
  .record starters referee referee ⟨3⟩ 95,
  .record starters referee referee ⟨1⟩ 90]

def results : List RaceResult := [⟨⟨1⟩, 80⟩, ⟨⟨2⟩, 90⟩, ⟨⟨1⟩, 90⟩]

end Tie

theorem faithful_tie : (opening.run Tie.calls).results = Tie.results ∧
    (opening.run Tie.calls).results.length < UInt64.size ∧ (opening.run Tie.calls).Faithful := by
  have hresults : (opening.run Tie.calls).results = Tie.results := by decide
  have hroom : (opening.run Tie.calls).results.length < UInt64.size := by
    rw [hresults]
    decide
  exact ⟨hresults, hroom, faithful_run Tie.calls hroom⟩

end Season

end Leaderboard

end Paddock
