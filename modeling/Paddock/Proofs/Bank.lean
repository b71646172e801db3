import Paddock.Bank
import Paddock.Proofs.Change

/-! What transfers do to the pots, and that they neither make nor lose currency. -/
namespace Paddock

variable {κ : Type} [Key κ]

/-! ### Sums over a table -/

/-- All amounts of a table together. -/
def Table.total (t : Table κ Amount) : Nat := t.entries.foldr (fun e n => e.2.toNat + n) 0

def Table.amountAt (t : Table κ Amount) (k : κ) : Nat := ((t.get? k).getD 0).toNat

theorem find?_eq_none_of_lt {l : List (κ × Amount)} {k : κ}
    (h : ∀ e ∈ l, Key.rank k < Key.rank e.1) :
    l.find? (fun e => Key.rank e.1 == Key.rank k) = none := by
  rw [List.find?_eq_none]
  intro e he
  have := h e he
  simp only [beq_iff_eq]
  omega

theorem Table.total_insert (t : Table κ Amount) (k : κ) (v : Amount) :
    (t.insert k v).total + t.amountAt k = t.total + v.toNat := by
  obtain ⟨l, hl⟩ := t
  simp only [total, amountAt, get?, insert]
  induction l with
  | nil => simp [insertEntry]; rfl
  | cons e l ih =>
    obtain ⟨he, hl'⟩ := List.pairwise_cons.mp hl
    simp only [insertEntry]
    split
    · next hk =>
      rw [find?_eq_none_of_lt]
      · simp only [List.foldr_cons, Option.map_none, Option.getD_none]
        change _ + 0 = _
        omega
      · intro x hx
        rcases List.mem_cons.mp hx with rfl | hx
        · exact hk
        · exact Nat.lt_trans hk (he x hx)
    · split
      · next hk =>
        have hne : (Key.rank e.1 == Key.rank k) = false := by simp; omega
        have := ih hl'
        simp only [List.find?_cons, hne, List.foldr_cons]
        omega
      · next hk hk' =>
        have heq : (Key.rank e.1 == Key.rank k) = true := by simp; omega
        simp only [List.find?_cons, heq, List.foldr_cons, Option.map_some,
          Option.getD_some]
        omega

theorem Table.total_erase (t : Table κ Amount) (k : κ) :
    (t.erase k).total + t.amountAt k = t.total := by
  obtain ⟨l, hl⟩ := t
  simp only [total, amountAt, get?, erase]
  induction l with
  | nil => rfl
  | cons e l ih =>
    obtain ⟨he, hl'⟩ := List.pairwise_cons.mp hl
    by_cases hk : Key.rank e.1 = Key.rank k
    · have hrest : l.filter (fun x => Key.rank x.1 != Key.rank k) = l := by
        rw [List.filter_eq_self]
        intro x hx
        have := he x hx
        simp only [bne_iff_ne]
        omega
      simp [hk, hrest]
      omega
    · have := ih hl'
      simp only [List.filter_cons, List.find?_cons, beq_eq_false_iff_ne.mpr hk, bne, Bool.not_false,
        if_true, List.foldr_cons] at this ⊢
      omega

namespace Amount

variable {a b d : Amount}

theorem add?_eq_some_iff : a.add? b = some d ↔ d.toNat = a.toNat + b.toNat := by
  unfold add? ofNat?
  split
  · simp only [Option.some.injEq]
    exact ⟨fun h => h ▸ rfl, fun h => ext h.symm⟩
  · have := d.isLt
    simp only [reduceCtorEq, false_iff]
    omega

theorem add?_eq_none_iff : a.add? b = none ↔ amountBound ≤ a.toNat + b.toNat := by
  unfold add? ofNat?
  split <;> simp <;> omega

theorem sub?_eq_some_iff : a.sub? b = some d ↔ b.toNat ≤ a.toNat ∧ d.toNat = a.toNat - b.toNat := by
  unfold sub?
  split
  · simp only [Option.some.injEq, *, true_and]
    exact ⟨fun h => h ▸ rfl, fun h => ext h.symm⟩
  · next hle =>
    simp only [reduceCtorEq, false_iff]
    exact fun h => hle h.1

theorem sub?_eq_none_iff : a.sub? b = none ↔ a < b := by
  have hlt : a < b ↔ ¬ b.toNat ≤ a.toNat := Nat.not_le.symm
  unfold sub?
  split <;> simp [*]

end Amount

namespace Bank

variable {b b' : Bank} {p p' : Prepared} {pot q : Pot} {v : Amount} {t : Transfer} {e : BankError}

/-! ### Pots -/

/-- What the bank has on record for a pot; an account may have nothing on record. -/
def stored (b : Bank) : Pot → Option Amount
  | .treasury => some b.treasury
  | .account id => b.balances.get? id

/-- What is put on record for a balance. -/
def kept : Pot → Amount → Option Amount
  | .treasury, v => some v
  | .account _, v => if v = 0 then none else some v

theorem potBalance_eq (b : Bank) (q : Pot) : b.potBalance q = (b.stored q).getD 0 := by
  cases q <;> rfl

theorem getD_kept (q : Pot) (v : Amount) : (kept q v).getD 0 = v := by
  cases q with
  | treasury => rfl
  | account id =>
    simp only [kept]
    split
    · next h => exact h.symm
    · rfl

theorem ext_stored (h : ∀ q, b.stored q = b'.stored q) (htotal : b.totalIssued = b'.totalIssued) :
    b = b' := by
  have hbalances : b.balances = b'.balances := Table.ext_get? fun id => h (.account id)
  have htreasury : b.treasury = b'.treasury := Option.some.inj (h .treasury)
  cases b; cases b'
  simp_all

theorem stored_setBalance (b : Bank) (pot q : Pot) (v : Amount) :
    (b.setBalance (pot, v)).stored q = if pot = q then kept pot v else b.stored q := by
  cases pot with
  | treasury => cases q <;> simp [setBalance, stored, kept]
  | account id =>
    simp only [setBalance, kept]
    split
    · cases q with
      | treasury => simp [stored]
      | account id' => simp [stored, Table.get?_erase]
    · cases q with
      | treasury => simp [stored]
      | account id' => simp [stored, Table.get?_insert]

theorem potBalance_setBalance (b : Bank) (pot q : Pot) (v : Amount) :
    (b.setBalance (pot, v)).potBalance q = if pot = q then v else b.potBalance q := by
  simp only [potBalance_eq, stored_setBalance]
  split
  · exact getD_kept pot v
  · rfl

@[simp] theorem totalIssued_setBalance (b : Bank) (entry : Pot × Amount) :
    (b.setBalance entry).totalIssued = b.totalIssued := by
  obtain ⟨pot, v⟩ := entry
  cases pot with
  | treasury => rfl
  | account id => simp only [setBalance]; split <;> rfl

/-! ### Applying what was prepared -/

@[simp] theorem totalIssued_commit (b : Bank) (p : Prepared) : (b.commit p).totalIssued = b.totalIssued := by
  unfold commit
  induction p.entries generalizing b with
  | nil => rfl
  | cons entry l ih => exact (ih _).trans (totalIssued_setBalance b entry)

theorem stored_commit (b : Bank) (p : Prepared) (q : Pot) :
    (b.commit p).stored q = match p.get? q with
      | some v => kept q v
      | none => b.stored q := by
  obtain ⟨l, hl⟩ := p
  simp only [commit, Table.get?]
  induction l generalizing b with
  | nil => rfl
  | cons entry l ih =>
    obtain ⟨hentry, hl'⟩ := List.pairwise_cons.mp hl
    obtain ⟨pot, v⟩ := entry
    rw [List.foldl_cons, ih _ hl', stored_setBalance, List.find?_cons]
    by_cases hpot : pot = q
    · subst hpot
      -- Keys do not repeat, so no later entry writes this pot again.
      rw [find?_eq_none_of_lt hentry]
      simp
    · have hrank : (Key.rank pot == Key.rank q) = false := by simpa [Key.rank_eq_iff] using hpot
      simp [hpot, hrank]

@[simp] theorem commit_empty (b : Bank) : b.commit Table.empty = b := rfl

@[simp] theorem commit_insert (b : Bank) (p : Prepared) (pot : Pot) (v : Amount) :
    b.commit (p.insert pot v) = (b.commit p).setBalance (pot, v) := by
  refine ext_stored (fun q => ?_) ?_
  · rw [stored_setBalance, stored_commit, stored_commit, Table.get?_insert]
    by_cases hpot : pot = q
    · subst hpot
      simp
    · simp [hpot]
  · rw [totalIssued_setBalance, totalIssued_commit, totalIssued_commit]

theorem potBalance_commit (b : Bank) (p : Prepared) (q : Pot) :
    (b.commit p).potBalance q = b.preparedBalance p q := by
  rw [potBalance_eq, stored_commit, preparedBalance]
  cases p.get? q with
  | none => exact (potBalance_eq b q).symm
  | some v => exact getD_kept q v

/-! ### Conservation -/

/-- All currency there is. -/
def total (b : Bank) : Nat := b.balances.total + b.treasury.toNat

/-- Nothing circulates that was not issued, and nothing that was issued is lost. -/
def Conserved (b : Bank) : Prop := b.total = b.totalIssued.toNat

theorem conserved_empty : empty.Conserved := rfl

theorem Conserved.lt (h : b.Conserved) : b.total < amountBound := by
  rw [h]
  exact b.totalIssued.isLt

theorem total_setBalance (b : Bank) (pot : Pot) (v : Amount) :
    (b.setBalance (pot, v)).total + (b.potBalance pot).toNat = b.total + v.toNat := by
  cases pot with
  | treasury =>
    simp only [setBalance, total, potBalance]
    omega
  | account id =>
    simp only [setBalance, potBalance, balance]
    split
    · next hzero =>
      have := b.balances.total_erase id
      subst hzero
      simp only [total, Table.amountAt] at this ⊢
      change _ = _ + 0
      omega
    · have := b.balances.total_insert id v
      simp only [total, Table.amountAt] at this ⊢
      omega

theorem potBalance_le_total (b : Bank) (q : Pot) : (b.potBalance q).toNat ≤ b.total := by
  have := b.total_setBalance q 0
  change _ = _ + 0 at this
  omega

theorem checkedAdd_eq_ok_iff {x y sum : Amount} : checkedAdd x y = .ok sum ↔ sum.toNat = x.toNat + y.toNat := by
  rw [← Amount.add?_eq_some_iff, checkedAdd]
  cases x.add? y <;> simp

theorem checkedAdd_eq_error_iff {x y : Amount} :
    checkedAdd x y = .error e ↔ amountBound ≤ x.toNat + y.toNat ∧ .arithmeticOverflow = e := by
  rw [← Amount.add?_eq_none_iff, checkedAdd]
  cases x.add? y <;> simp

/-- A deposit by its result: both sums, or the first that is out of range. -/
theorem deposit_eq (b : Bank) (account : AccountId) (amount : Amount) :
    b.deposit account amount = do
      let balance ← checkedAdd (b.balance account) amount
      let totalIssued ← checkedAdd b.totalIssued amount
      return (balance, { b with balances := b.balances.insert account balance, totalIssued }) := by
  simp only [deposit, depositInPlace, Change.outcome_check_bind]
  rfl

theorem deposit_eq_ok_iff {account : AccountId} {amount balance : Amount} :
    b.deposit account amount = .ok (balance, b') ↔
      balance.toNat = (b.balance account).toNat + amount.toNat ∧
      ∃ issued : Amount, issued.toNat = b.totalIssued.toNat + amount.toNat ∧
        { b with balances := b.balances.insert account balance, totalIssued := issued } = b' := by
  simp only [deposit_eq, bind_eq_ok_iff, pure_eq_ok_iff, Prod.mk.injEq, checkedAdd_eq_ok_iff]
  constructor
  · rintro ⟨_, hbalance, issued, hissued, rfl, rfl⟩
    exact ⟨hbalance, issued, hissued, rfl⟩
  · rintro ⟨hbalance, issued, hissued, rfl⟩
    exact ⟨balance, hbalance, issued, hissued, rfl, rfl⟩

/-- Both sums are known to be in range before the first is written. -/
theorem clean_deposit (account : AccountId) (amount : Amount) (b : Bank) :
    (depositInPlace account amount).Clean b := by
  refine Change.clean_check_bind fun balance _ => Change.clean_check_bind fun totalIssued _ => ?_
  refine Change.Succeeds.clean ((Change.succeeds_modify _).bind fun _ _ _ => ?_)
  exact (Change.succeeds_modify _).bind fun _ _ _ => Change.succeeds_pure _

theorem Conserved.deposit {account : AccountId} {amount balance : Amount} (hb : b.Conserved)
    (h : b.deposit account amount = .ok (balance, b')) : b'.Conserved := by
  obtain ⟨hbalance, issued, hissued, rfl⟩ := deposit_eq_ok_iff.mp h
  have hsum := b.balances.total_insert account balance
  have hb : b.balances.total + b.treasury.toNat = b.totalIssued.toNat := hb
  change (b.balances.insert account balance).total + b.treasury.toNat = issued.toNat
  simp only [Bank.balance, Table.amountAt] at hbalance hsum
  omega

/-! ### Transfers -/

/-- The bank after one transfer, with the new balances of both sides. -/
def moved (b : Bank) (t : Transfer) (debited credited : Amount) : Bank :=
  (b.setBalance (t.source, debited)).setBalance (t.target, credited)

theorem prepareOne_eq_ok_iff :
    b.prepareOne p t = .ok p' ↔
      ∃ debited credited, t.amount.toNat ≤ ((b.commit p).potBalance t.source).toNat ∧
        debited.toNat = ((b.commit p).potBalance t.source).toNat - t.amount.toNat ∧
        credited.toNat =
          (((b.commit p).setBalance (t.source, debited)).potBalance t.target).toNat + t.amount.toNat ∧
        (p.insert t.source debited).insert t.target credited = p' := by
  simp only [prepareOne, ← potBalance_commit, commit_insert]
  cases hsub : ((b.commit p).potBalance t.source).sub? t.amount with
  | none =>
    simp only [throw_ne_ok, false_iff]
    rintro ⟨debited, _, hle, hdebited, _⟩
    rw [Amount.sub?_eq_some_iff.mpr ⟨hle, hdebited⟩] at hsub
    cases hsub
  | some debited =>
    obtain ⟨hle, hdebited⟩ := Amount.sub?_eq_some_iff.mp hsub
    simp only [bind_eq_ok_iff, pure_eq_ok_iff, checkedAdd_eq_ok_iff]
    constructor
    · rintro ⟨credited, hcredited, rfl⟩
      exact ⟨debited, credited, hle, hdebited, hcredited, rfl⟩
    · rintro ⟨debited', credited, -, hdebited', hcredited, rfl⟩
      obtain rfl : debited' = debited := Amount.ext (hdebited'.trans hdebited.symm)
      exact ⟨credited, hcredited, rfl⟩

theorem commit_of_prepareOne (h : b.prepareOne p t = .ok p') :
    ∃ debited credited, t.amount.toNat ≤ ((b.commit p).potBalance t.source).toNat ∧
      debited.toNat = ((b.commit p).potBalance t.source).toNat - t.amount.toNat ∧
      credited.toNat =
        (((b.commit p).setBalance (t.source, debited)).potBalance t.target).toNat + t.amount.toNat ∧
      b.commit p' = (b.commit p).moved t debited credited := by
  obtain ⟨debited, credited, hle, hdebited, hcredited, rfl⟩ := prepareOne_eq_ok_iff.mp h
  exact ⟨debited, credited, hle, hdebited, hcredited, by rw [commit_insert, commit_insert, moved]⟩

/-- Why a bank does not make a transfer: the source has too little at this point, or the target would
have too much. -/
inductive Refuses (b : Bank) (t : Transfer) : BankError → Prop
  | overdrawn (h : b.potBalance t.source < t.amount) :
      Refuses b t (Bank.overdrawn t.source t.amount (b.potBalance t.source))
  | overflow {debited : Amount} (hdebited : debited.toNat + t.amount.toNat = (b.potBalance t.source).toNat)
      (h : amountBound ≤ ((b.setBalance (t.source, debited)).potBalance t.target).toNat + t.amount.toNat) :
      Refuses b t .arithmeticOverflow

theorem prepareOne_eq_error_iff : b.prepareOne p t = .error e ↔ (b.commit p).Refuses t e := by
  simp only [prepareOne, ← potBalance_commit, commit_insert]
  cases hsub : ((b.commit p).potBalance t.source).sub? t.amount with
  | none =>
    have hless := Amount.sub?_eq_none_iff.mp hsub
    constructor
    · intro h
      cases h
      exact .overdrawn hless
    · intro h
      cases h with
      | overdrawn _ => rfl
      | overflow hdebited _ =>
        have hless : ((b.commit p).potBalance t.source).toNat < t.amount.toNat := hless
        omega
  | some debited =>
    obtain ⟨hle, hdebited⟩ := Amount.sub?_eq_some_iff.mp hsub
    have hdebited : debited.toNat + t.amount.toNat = ((b.commit p).potBalance t.source).toNat := by omega
    simp only [bind_eq_error_iff, checkedAdd_eq_error_iff, pure_ne_error, and_false, exists_false, or_false]
    constructor
    · rintro ⟨hbound, rfl⟩
      exact .overflow hdebited hbound
    · intro h
      cases h with
      | overdrawn hless => exact absurd hless (Nat.not_lt.mpr hle)
      | @overflow debited' hdebited' hbound =>
        obtain rfl : debited = debited' := Amount.ext (by omega)
        exact ⟨hbound, rfl⟩

/-- What one side loses the other side gains. -/
theorem total_commit_of_prepareOne (h : b.prepareOne p t = .ok p') :
    (b.commit p').total = (b.commit p).total := by
  obtain ⟨debited, credited, hle, hdebited, hcredited, heq⟩ := commit_of_prepareOne h
  have hdebit := (b.commit p).total_setBalance t.source debited
  have hcredit := ((b.commit p).setBalance (t.source, debited)).total_setBalance t.target credited
  rw [heq, moved]
  omega

/-- Where all currency together is in range, a credit stays in range, so only funds can be missing. -/
theorem exists_prepareOne (hfit : (b.commit p).total < amountBound)
    (hfunds : t.amount.toNat ≤ ((b.commit p).potBalance t.source).toNat) :
    ∃ p', b.prepareOne p t = .ok p' := by
  let available := (b.commit p).potBalance t.source
  let debited : Amount := available - t.amount
  have hdebited : debited.toNat = available.toNat - t.amount.toNat := Amount.toNat_sub_of_le hfunds
  have hsum := (b.commit p).total_setBalance t.source debited
  have hle := ((b.commit p).setBalance (t.source, debited)).potBalance_le_total t.target
  have hroom : (((b.commit p).setBalance (t.source, debited)).potBalance t.target).toNat +
      t.amount.toNat < amountBound := by
    change _ + available.toNat = _ at hsum
    change _ ≤ available.toNat at hfunds
    omega
  exact ⟨_, prepareOne_eq_ok_iff.mpr ⟨debited, ⟨_, hroom⟩, hfunds, hdebited, rfl, rfl⟩⟩

/-- What one pot gets out of a transfer and what it gives. -/
theorem potBalance_of_prepareOne (h : b.prepareOne p t = .ok p') (q : Pot) :
    ((b.commit p').potBalance q).toNat + (if t.source = q then t.amount.toNat else 0) =
      ((b.commit p).potBalance q).toNat + (if t.target = q then t.amount.toNat else 0) := by
  obtain ⟨debited, credited, hle, hdebited, hcredited, heq⟩ := commit_of_prepareOne h
  simp only [heq, moved, potBalance_setBalance] at hcredited ⊢
  by_cases htarget : t.target = q
  · subst htarget
    by_cases hsource : t.source = t.target
    · rw [hsource] at hle hdebited
      simp only [hsource, if_true] at hcredited ⊢
      omega
    · simp only [hsource, if_true, if_false] at hcredited ⊢
      omega
  · by_cases hsource : t.source = q
    · subst hsource
      simp [htarget]
      omega
    · simp [htarget, hsource]

/-- What a pot gives in some transfers. -/
def outgoing (transfers : List Transfer) (q : Pot) : Nat :=
  transfers.foldr (fun t n => (if t.source = q then t.amount.toNat else 0) + n) 0

/-- What a pot gets in some transfers. -/
def incoming (transfers : List Transfer) (q : Pot) : Nat :=
  transfers.foldr (fun t n => (if t.target = q then t.amount.toNat else 0) + n) 0

theorem potBalance_of_foldlM {transfers : List Transfer}
    (h : transfers.foldlM b.prepareOne p = .ok p') (q : Pot) :
    ((b.commit p').potBalance q).toNat + outgoing transfers q =
      ((b.commit p).potBalance q).toNat + incoming transfers q := by
  induction transfers generalizing p with
  | nil => cases h; rfl
  | cons t rest ih =>
    rw [List.foldlM_cons, bind_eq_ok_iff] at h
    obtain ⟨p₁, hone, hrest⟩ := h
    have hstep := potBalance_of_prepareOne hone q
    have := ih hrest
    simp only [outgoing, incoming, List.foldr_cons] at this ⊢
    omega

/-- Transfers change each pot by what it gets less what it gives. -/
theorem potBalance_of_prepare {transfers : List Transfer} (h : b.prepare transfers = .ok p) (q : Pot) :
    ((b.commit p).potBalance q).toNat + outgoing transfers q =
      (b.potBalance q).toNat + incoming transfers q :=
  potBalance_of_foldlM h q

theorem total_commit_of_foldlM {transfers : List Transfer}
    (h : transfers.foldlM b.prepareOne p = .ok p') : (b.commit p').total = (b.commit p).total := by
  induction transfers generalizing p with
  | nil => cases h; rfl
  | cons t rest ih =>
    rw [List.foldlM_cons, bind_eq_ok_iff] at h
    obtain ⟨p₁, hone, hrest⟩ := h
    exact (ih hrest).trans (total_commit_of_prepareOne hone)

theorem Conserved.commit {transfers : List Transfer} (hb : b.Conserved)
    (h : b.prepare transfers = .ok p) : (b.commit p).Conserved := by
  rw [Conserved, totalIssued_commit, total_commit_of_foldlM h]
  exact hb

end Bank

end Paddock
