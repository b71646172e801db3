import Mathlib.Algebra.GroupWithZero.Nat
import Paddock.Proofs.Runs

/-! All currency there is was deposited, and its sum stays in range, so that no credit overflows. -/
namespace Paddock

namespace Amount

variable {a b d : Amount}

theorem foldlM_add?_eq_some_iff {l : List Amount} :
    l.foldlM add? a = some d ↔ d.toNat = a.toNat + (l.map toNat).sum := by
  induction l generalizing a with
  | nil =>
    simp only [List.foldlM_nil, Option.pure_def, Option.some.injEq, List.map_nil, List.sum_nil, Nat.add_zero]
    exact ⟨fun h => h ▸ rfl, fun h => ext h.symm⟩
  | cons b l ih =>
    simp only [List.foldlM_cons, Option.bind_eq_bind, Option.bind_eq_some_iff, ih, List.map_cons,
      List.sum_cons, add?_eq_some_iff]
    constructor
    · rintro ⟨c, hc, hd⟩
      omega
    · intro hd
      have hroom : a.toNat + b.toNat < amountBound := by have := d.isLt; omega
      refine ⟨⟨_, hroom⟩, rfl, ?_⟩
      change d.toNat = a.toNat + b.toNat + _
      omega

end Amount

namespace Bank

variable {b : Bank} {e : BankError} {account : AccountId} {amount : Amount} {p : Prepared} {t : Transfer}

theorem total_eq_sum (b : Bank) : b.total = b.treasury.toNat + (b.balances.values.map Amount.toNat).sum := by
  rw [total, Table.total, Table.values, Nat.add_comm]
  congr 1
  induction b.balances.entries with
  | nil => rfl
  | cons entry l ih => simp only [List.foldr_cons, List.map_cons, List.sum_cons, ih]

theorem Conserved.circulating (hb : b.Conserved) : b.circulating? = some b.totalIssued := by
  rw [circulating?, Amount.foldlM_add?_eq_some_iff, ← total_eq_sum]
  exact hb.symm

/-- The balance is a part of what was issued, so the sum of all that was issued overflows first. -/
theorem Conserved.deposit_eq_error_iff (hb : b.Conserved) :
    b.deposit account amount = .error e ↔
      amountBound ≤ b.totalIssued.toNat + amount.toNat ∧ e = .arithmeticOverflow := by
  have hle : (b.balance account).toNat ≤ b.totalIssued.toNat := by
    rw [← hb]
    exact b.potBalance_le_total (.account account)
  rw [deposit_eq]
  unfold checkedAdd
  cases hissued : b.totalIssued.add? amount with
  | none =>
    have hover := Amount.add?_eq_none_iff.mp hissued
    cases (b.balance account).add? amount <;> simp [bind, Except.bind, hover, eq_comm]
  | some issued =>
    have hroom := Amount.add?_eq_some_iff.mp hissued
    have hlt := issued.isLt
    have hfits : (b.balance account).toNat + amount.toNat < amountBound := by omega
    have hbalance : (b.balance account).add? amount = some ⟨_, hfits⟩ := Amount.add?_eq_some_iff.mpr rfl
    have hover : ¬ amountBound ≤ b.totalIssued.toNat + amount.toNat := by omega
    simp [hbalance, bind, Except.bind, pure, Except.pure, hover]

theorem overdrawn_ne_overflow (pot : Pot) (amount available : Amount) :
    overdrawn pot amount available ≠ .arithmeticOverflow := by
  cases pot <;> nofun

theorem prepareOne_ne_overflow (hfit : (b.commit p).total < amountBound) (t : Transfer) :
    b.prepareOne p t ≠ .error .arithmeticOverflow := by
  intro h
  generalize he : BankError.arithmeticOverflow = e at h
  cases prepareOne_eq_error_iff.mp h with
  | overdrawn _ => exact overdrawn_ne_overflow _ _ _ he.symm
  | @overflow debited hdebited hbound =>
    have hsum := (b.commit p).total_setBalance t.source debited
    have hle := ((b.commit p).setBalance (t.source, debited)).potBalance_le_total t.target
    omega

/-- Whatever is transferred in whatever order, only funds can be missing. -/
theorem Conserved.prepare_ne_overflow (hb : b.Conserved) (transfers : List Transfer) :
    b.prepare transfers ≠ .error .arithmeticOverflow := by
  have hfit : (b.commit Table.empty).total < amountBound := hb.lt
  unfold prepare
  generalize (Table.empty : Prepared) = p at hfit
  induction transfers generalizing p with
  | nil => nofun
  | cons t rest ih =>
    rw [List.foldlM_cons]
    intro h
    cases hone : b.prepareOne p t with
    | error e =>
      rw [hone] at h
      cases h
      exact prepareOne_ne_overflow hfit t hone
    | ok p₁ =>
      rw [hone] at h
      exact ih p₁ (by rw [total_commit_of_prepareOne hone]; exact hfit) h

end Bank

/-- What an event brought in from outside. -/
def Event.issued : Event → Nat
  | .deposited _ amount => amount.toNat
  | _ => 0

/-- All that was ever deposited, by the journal. -/
def Journal.deposits (j : Journal) : Nat := (j.entries.map fun entry => entry.event.issued).sum

theorem Journal.deposits_append (hash : Hasher) (j : Journal) (event : Event) :
    (j.append hash event).deposits = j.deposits + event.issued := by
  simp [deposits, append, commit, prepare, Entry.sealed]

namespace Ledger

open Change

variable {hash : Hasher} {s s' start : Ledger} {operation : Operation} {reply : Reply} {α : Type}

/-! ### Deposits -/

/-- The journal tells of every deposit, and of its amount. -/
def Accounted (s : Ledger) : Prop := s.bank.totalIssued.toNat = s.journal.deposits

theorem issued_of_deposit {b b' : Bank} {account : AccountId} {amount balance : Amount}
    (h : b.deposit account amount = .ok (balance, b')) :
    b'.totalIssued.toNat = b.totalIssued.toNat + amount.toNat := by
  obtain ⟨-, issued, hissued, rfl⟩ := Bank.deposit_eq_ok_iff.mp h
  exact hissued

theorem accounted_step (hs : s.Accounted) (h : Step hash s operation reply s') : s'.Accounted := by
  unfold Accounted at hs ⊢
  cases h with
  | deposit h => simp only [record, Journal.deposits_append, issued_of_deposit h, hs, Event.issued]
  | @setAuthority _ role _ _ =>
    cases role <;> simpa only [record, appoint, Journal.deposits_append, Event.issued, Nat.add_zero] using hs
  | _ =>
    simpa only [record, saleEvent, setOperator, Journal.deposits_append, Event.issued, Nat.add_zero,
      Bank.totalIssued_commit] using hs

theorem accounted_reachable (h : Reachable hash s) : s.Accounted := by
  refine invariant_reachable (fun hstart => ?_) (fun _ => accounted_step) h
  obtain ⟨-, -, rfl⟩ := genesis_eq_ok_iff.mp hstart
  rfl

/-! ### No overflow -/

theorem avoids_recorded {x : Change LedgerError Ledger α} {event : Event} {e : LedgerError}
    (hx : x.Avoids s e) : (recorded hash event x).Avoids s e :=
  avoids_get_bind (hx.bind fun _ _ _ => ((succeeds_modify _).bind fun _ _ _ => succeeds_pure _).avoids)

theorem avoids_check_bind {look : Ledger → Except LedgerError α} {β : Type} {e : LedgerError}
    {f : α → Change LedgerError Ledger β} (hlook : look s ≠ .error e) (hf : ∀ a, (f a).Avoids s e) :
    (check look >>= f).Avoids s e := by
  refine (avoids_check hlook).bind fun a t ht => ?_
  obtain ⟨-, rfl⟩ := check_ok_iff.mp ht
  exact hf a

theorem prepare_ne_overflow (hb : s.bank.Conserved) (transfers : List Transfer) :
    s.prepare transfers ≠ .error (.bank .arithmeticOverflow) := by
  unfold Ledger.prepare
  cases hprepared : s.bank.prepare transfers with
  | ok prepared => nofun
  | error e =>
    rintro ⟨⟩
    exact hb.prepare_ne_overflow transfers hprepared

theorem ensureOperator_ne_overflow {caller : AccountId} :
    s.ensureOperator caller ≠ .error (.bank .arithmeticOverflow) := by
  unfold ensureOperator
  split <;> nofun

theorem execute_deposit_ok_iff {account : AccountId} {amount : Amount} :
    (∃ reply s', s.execute hash (.deposit account amount) = (.ok reply, s')) ↔
      ∃ answer, s.bank.deposit account amount = .ok answer := by
  simp only [execute_eq_ok_iff, perform, deposit, inBank, map_ok_iff, recorded_ok_iff, within_ok_iff]
  constructor
  · rintro ⟨_, _, balance, ⟨_, ⟨bank, h, -⟩, -⟩, -⟩
    exact ⟨(balance, bank), outcome_ok_iff.mpr h⟩
  · rintro ⟨⟨balance, bank⟩, h⟩
    exact ⟨_, _, balance, ⟨_, ⟨bank, outcome_ok_iff.mp h, rfl⟩, rfl⟩, rfl⟩

theorem execute_deposit_error_iff {account : AccountId} {amount : Amount} :
    (∃ e s', s.execute hash (.deposit account amount) = (.error e, s')) ↔
      ∃ e, s.bank.deposit account amount = .error e := by
  have hok := @execute_deposit_ok_iff hash s account amount
  rcases hexecute : s.execute hash (.deposit account amount) with ⟨e | reply, t⟩ <;>
    cases hdeposit : s.bank.deposit account amount <;> simp_all

theorem avoids_withdraw (hb : s.bank.Conserved) (caller : AccountId) (amount : Option Amount) :
    (withdraw hash caller amount).Avoids s (.bank .arithmeticOverflow) := by
  refine avoids_check_bind ensureOperator_ne_overflow fun _ => avoids_get_bind ?_
  refine avoids_check_bind (prepare_ne_overflow hb _) fun prepared => ?_
  exact Avoids.bind (avoids_recorded (succeeds_commitFunds prepared s).avoids) fun _ _ _ => (succeeds_pure _).avoids

theorem avoids_mintCar (hb : s.bank.Conserved) (caller : AccountId) (request : MintRequest)
    (payment : Amount) : (mintCar hash caller request payment).Avoids s (.bank .arithmeticOverflow) := by
  refine avoids_check_bind ?_ fun _ => avoids_check_bind (mapError_ne_error nofun) fun _ => ?_
  · unfold checkMintPrice
    split <;> nofun
  refine avoids_check_bind (prepare_ne_overflow hb _) fun prepared => ?_
  refine avoids_check_bind (mapError_ne_error nofun) fun _ => avoids_recorded ?_
  refine (avoids_within nofun).bind fun _ t _ => ?_
  exact ((succeeds_commitFunds prepared t).bind fun _ _ _ => succeeds_pure _).avoids

theorem avoids_buy (hb : s.bank.Conserved) (buyer : AccountId) (car : CarId) (payment : Amount) :
    (buy hash buyer car payment).Avoids s (.bank .arithmeticOverflow) := by
  refine avoids_check_bind (mapError_ne_error nofun) fun plan => avoids_check_bind ?_ fun _ => ?_
  · simp only [Bank.ensureFunds]
    split <;> nofun
  refine avoids_check_bind (prepare_ne_overflow hb _) fun prepared => ?_
  refine Avoids.bind (avoids_recorded ?_) fun _ _ _ => (succeeds_pure _).avoids
  exact (avoids_within nofun).bind fun _ t _ => (succeeds_commitFunds prepared t).avoids

theorem avoids_repair (hb : s.bank.Conserved) (caller : AccountId) (car : CarId) (payment : Amount) :
    (repair hash caller car payment).Avoids s (.bank .arithmeticOverflow) := by
  refine avoids_check_bind (mapError_ne_error nofun) fun _ => ?_
  refine avoids_check_bind (prepare_ne_overflow hb _) fun prepared => avoids_recorded ?_
  refine Avoids.bind (avoids_get_bind (avoids_within nofun)) fun _ t _ => ?_
  exact ((succeeds_commitFunds prepared t).bind fun _ _ _ => succeeds_pure _).avoids

theorem execute_ne_error {e : LedgerError} (h : (perform hash operation).Avoids s e) (s' : Ledger) :
    s.execute hash operation ≠ (.error e, s') :=
  fun he => h s' (execute_eq_error_iff.mp he)

/-- The balances and the treasury are together what was issued, which is what the journal says was
deposited, and in range. So only a deposit can be too much, and is where it takes what was issued out
of range. -/
theorem currency_conserved (hs : Reachable hash s) :
    s.bank.total = s.bank.totalIssued.toNat ∧ s.bank.totalIssued.toNat = s.journal.deposits ∧
      s.bank.total < amountBound ∧ s.bank.circulating? = some s.bank.totalIssued ∧
      (∀ account amount, (∃ e s', s.execute hash (.deposit account amount) = (.error e, s')) ↔
        amountBound ≤ s.bank.totalIssued.toNat + amount.toNat) ∧
      (∀ caller amount s', s.execute hash (.withdraw caller amount) ≠ (.error (.bank .arithmeticOverflow), s')) ∧
      (∀ caller request payment s',
        s.execute hash (.mintCar caller request payment) ≠ (.error (.bank .arithmeticOverflow), s')) ∧
      (∀ caller car payment s',
        s.execute hash (.repair caller car payment) ≠ (.error (.bank .arithmeticOverflow), s')) ∧
      ∀ buyer car payment s', s.execute hash (.buy buyer car payment) ≠ (.error (.bank .arithmeticOverflow), s') := by
  have hb := (coherent_reachable hs).conserved
  refine ⟨hb, accounted_reachable hs, hb.lt, hb.circulating, fun account amount => ?_, ?_, ?_, ?_, ?_⟩
  · rw [execute_deposit_error_iff]
    simp only [hb.deposit_eq_error_iff, exists_and_left, exists_eq, and_true]
  · exact fun caller amount => execute_ne_error (avoids_withdraw hb caller amount).map
  · exact fun caller request payment => execute_ne_error (avoids_mintCar hb caller request payment).map
  · exact fun caller car payment => execute_ne_error (avoids_repair hb caller car payment).map
  · exact fun buyer car payment => execute_ne_error (avoids_buy hb buyer car payment).map

/-- With 1000 in circulation, the largest amount there is cannot be deposited as well. -/
theorem currency_conserved_fair : Reachable Fair.hasher Fair.opened ∧
    Fair.opened.bank.total = Fair.opened.journal.deposits ∧
      ∃ e s', Fair.opened.execute Fair.hasher (.deposit (Fair.account 3) ⟨amountBound - 1, by decide⟩) =
        (.error e, s') := by
  obtain ⟨htotal, hdeposits, -, -, hdeposit, -⟩ := currency_conserved Fair.reachable_opened
  have hissued : Fair.opened.bank.totalIssued = 1000 := by decide +kernel
  refine ⟨Fair.reachable_opened, htotal.trans hdeposits, (hdeposit _ _).mpr ?_⟩
  rw [hissued]
  decide

end Ledger

end Paddock
