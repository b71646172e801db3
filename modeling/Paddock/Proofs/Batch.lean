import Paddock.Proofs.Bank

/-! A batch of transfers comes to what its transfers come to one after the other, except that it is made
as a whole or not at all. -/
namespace Paddock.Bank

variable {b b' reached : Bank} {p p' : Prepared} {t : Transfer} {ts : List Transfer} {e : BankError}

/-- Transfers prepared together and committed at once. -/
def transferAll (ts : List Transfer) : Change BankError Bank Unit := do
  let prepared ← .check (·.prepare ts)
  modify (·.commit prepared)

/-- Each transfer prepared and committed before the next one is looked at. -/
def transferEach (ts : List Transfer) : Change BankError Bank Unit :=
  ts.forM fun t => transferAll [t]

theorem transferAll_eq (b : Bank) (ts : List Transfer) :
    transferAll ts b = match b.prepare ts with
      | .ok p => .ok () (b.commit p)
      | .error e => .error e b := by
  simp only [transferAll, bind, EStateM.bind, Change.check]
  cases b.prepare ts with
  | ok p => rfl
  | error e => rfl

theorem transferAll_ok_iff : transferAll ts b = .ok () b' ↔ ∃ p, b.prepare ts = .ok p ∧ b.commit p = b' := by
  rw [transferAll_eq]
  cases b.prepare ts <;> simp

theorem transferAll_error_iff : transferAll ts b = .error e b' ↔ b.prepare ts = .error e ∧ b = b' := by
  rw [transferAll_eq]
  cases b.prepare ts <;> simp

theorem prepare_singleton (b : Bank) (t : Transfer) : b.prepare [t] = b.prepareOne Table.empty t := by
  have hpure (x : Except BankError Prepared) : (x >>= fun p => pure p) = x := by
    cases x <;> rfl
  exact hpure _

theorem transferAll_singleton_error_iff : transferAll [t] b = .error e b' ↔ b.Refuses t e ∧ b = b' := by
  rw [transferAll_error_iff, prepare_singleton, prepareOne_eq_error_iff, commit_empty]

/-- What was prepared counts for the next transfer as if it had been committed. -/
theorem transferAll_singleton_commit (h : b.prepareOne p t = .ok p') :
    transferAll [t] (b.commit p) = .ok () (b.commit p') := by
  obtain ⟨debited, credited, hle, hdebited, hcredited, rfl⟩ := prepareOne_eq_ok_iff.mp h
  apply transferAll_ok_iff.mpr
  refine ⟨(Table.empty.insert t.source debited).insert t.target credited, ?_, ?_⟩
  · rw [prepare_singleton]
    apply prepareOne_eq_ok_iff.mpr
    exact ⟨debited, credited, hle, hdebited, hcredited, rfl⟩
  · simp only [commit_insert, commit_empty]

theorem transferEach_cons : transferEach (t :: ts) = transferAll [t] >>= fun _ => transferEach ts := rfl

theorem transferEach_of_foldlM (h : ts.foldlM b.prepareOne p = .ok p') :
    transferEach ts (b.commit p) = .ok () (b.commit p') := by
  induction ts generalizing p with
  | nil =>
    cases h
    rfl
  | cons t ts ih =>
    rw [List.foldlM_cons, bind_eq_ok_iff] at h
    obtain ⟨p₁, hone, hrest⟩ := h
    rw [transferEach_cons]
    apply Change.bind_ok_iff.mpr
    exact ⟨(), b.commit p₁, transferAll_singleton_commit hone, ih hrest⟩

/-- The transfers before one that is refused. -/
structure StopsAt (b : Bank) (ts done : List Transfer) (t : Transfer) (reached : Bank) (e : BankError) : Prop where
  split : ∃ rest, ts = done ++ t :: rest
  made : transferEach done b = .ok () reached
  stopped : transferAll [t] reached = .error e reached
  refused : reached.Refuses t e

theorem exists_stopsAt_of_foldlM (h : ts.foldlM b.prepareOne p = .error e) :
    ∃ done t reached, StopsAt (b.commit p) ts done t reached e := by
  induction ts generalizing p with
  | nil => cases h
  | cons t ts ih =>
    rw [List.foldlM_cons] at h
    cases hone : b.prepareOne p t with
    | error e' =>
      rw [hone] at h
      cases h
      have hrefused := prepareOne_eq_error_iff.mp hone
      refine ⟨[], t, b.commit p, ⟨ts, rfl⟩, rfl, ?_, hrefused⟩
      exact transferAll_singleton_error_iff.mpr ⟨hrefused, rfl⟩
    | ok p₁ =>
      rw [hone] at h
      obtain ⟨done, u, reached, hstop⟩ := ih h
      obtain ⟨rest, rfl⟩ := hstop.split
      refine ⟨t :: done, u, reached, ⟨rest, rfl⟩, ?_, hstop.stopped, hstop.refused⟩
      rw [transferEach_cons]
      apply Change.bind_ok_iff.mpr
      exact ⟨(), b.commit p₁, transferAll_singleton_commit hone, hstop.made⟩

theorem StopsAt.transferEach_eq {done : List Transfer} (h : StopsAt b ts done t reached e) :
    transferEach ts b = .error e reached := by
  obtain ⟨rest, rfl⟩ := h.split
  have hsplit : transferEach (done ++ t :: rest) =
      transferEach done >>= fun _ => transferAll [t] >>= fun _ => transferEach rest := List.forM_append
  simp only [hsplit, bind, EStateM.bind, h.made, h.stopped]

/-- A batch is made just where its transfers can be made one after the other, and then leaves the same bank.
Otherwise it fails with the error of the first transfer that is refused, and the bank stays as it was. -/
theorem batch_eq_one_by_one (b : Bank) (ts : List Transfer) :
    (∀ b', transferAll ts b = .ok () b' ↔ transferEach ts b = .ok () b') ∧
      ∀ e b', transferAll ts b = .error e b' ↔
        b' = b ∧ ∃ done t reached, StopsAt b ts done t reached e := by
  cases hprepare : b.prepare ts with
  | ok p =>
    have hbatch := transferAll_ok_iff.mpr ⟨p, hprepare, rfl⟩
    have heach : transferEach ts b = .ok () (b.commit p) := transferEach_of_foldlM hprepare
    constructor
    · intro b'
      rw [hbatch, heach]
    · intro e b'
      constructor
      · intro h
        cases hbatch.symm.trans h
      · rintro ⟨-, done, t, reached, hstop⟩
        cases heach.symm.trans hstop.transferEach_eq
  | error e =>
    have hbatch := transferAll_error_iff.mpr ⟨hprepare, rfl⟩
    obtain ⟨done, t, reached, hstop⟩ : ∃ done t reached, StopsAt b ts done t reached e :=
      exists_stopsAt_of_foldlM hprepare
    constructor
    · intro b'
      rw [hbatch, hstop.transferEach_eq]
      simp
    · intro e' b'
      constructor
      · intro h
        cases hbatch.symm.trans h
        exact ⟨rfl, done, t, reached, hstop⟩
      · rintro ⟨rfl, done', t', reached', hstop'⟩
        cases hstop.transferEach_eq.symm.trans hstop'.transferEach_eq
        exact hbatch

end Paddock.Bank
