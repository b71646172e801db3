import Paddock.Proofs.Funds
import Paddock.Proofs.Journal
import Paddock.Proofs.Json.Records

/-! The entries that a bank keeps: for whom there is one, and how far balances tell banks apart. -/
namespace Paddock

namespace Bank

variable {b b' : Bank} {p p' : Prepared} {a account : AccountId} {amount balance : Amount} {ts : List Transfer}
  {t : Transfer} {q : Pot}

/-- An entry for an account that has nothing. -/
def ZeroEntry (b : Bank) (a : AccountId) : Prop := b.balances.get? a = some 0

theorem isSome_iff_of_not_zeroEntry (h : ¬ b.ZeroEntry a) :
    (b.balances.get? a).isSome = true ↔ b.balance a ≠ 0 := by
  unfold ZeroEntry at h
  rw [Bank.balance]
  cases hentry : b.balances.get? a with
  | none => simp
  | some v =>
    rw [hentry, Option.some.injEq] at h
    simpa using h

/-- Banks with the same balances differ at most in entries for accounts that have nothing. -/
theorem eq_iff_zeroEntry (hpots : ∀ q, b.potBalance q = b'.potBalance q) (hissued : b.totalIssued = b'.totalIssued) :
    b = b' ↔ ∀ a, b.ZeroEntry a ↔ b'.ZeroEntry a := by
  constructor
  · rintro rfl a
    exact Iff.rfl
  · intro hzero
    -- A balance of nothing is read from no entry and from an entry of nothing alike.
    refine ext_stored (fun q => ?_) hissued
    have hpot := hpots q
    rw [potBalance_eq, potBalance_eq] at hpot
    cases q with
    | treasury => exact congrArg some hpot
    | account a =>
      have ha := hzero a
      simp only [ZeroEntry] at ha
      simp only [stored] at hpot ⊢
      cases hentry : b.balances.get? a <;> cases hentry' : b'.balances.get? a <;> simp_all

theorem zeroEntry_of_deposit (h : b.deposit account amount = .ok (balance, b')) :
    b'.ZeroEntry a ↔ (account = a ∧ amount = 0 ∧ b.balance a = 0) ∨ (account ≠ a ∧ b.ZeroEntry a) := by
  obtain ⟨hbalance, issued, -, rfl⟩ := deposit_eq_ok_iff.mp h
  by_cases ha : account = a
  · subst ha
    have hzero {v : Amount} : v = 0 ↔ v.toNat = 0 := ⟨fun h => congrArg Amount.toNat h, fun h => Amount.ext h⟩
    have hsum : balance = 0 ↔ amount = 0 ∧ b.balance account = 0 := by
      simp only [hzero]
      omega
    simp only [ZeroEntry, Table.get?_insert_self, Option.some.injEq, hsum, ne_eq, not_true_eq_false, false_and,
      or_false, true_and]
  · simp only [ZeroEntry, Table.get?_insert_ne _ _ ha, ha, ne_eq, not_false_eq_true, true_and, false_and, false_or]

theorem get?_of_prepareOne (h : b.prepareOne p t = .ok p') :
    p'.get? q = none ↔ p.get? q = none ∧ t.source ≠ q ∧ t.target ≠ q := by
  obtain ⟨debited, credited, -, -, -, rfl⟩ := prepareOne_eq_ok_iff.mp h
  rw [Table.get?_insert, Table.get?_insert]
  by_cases htarget : t.target = q <;> by_cases hsource : t.source = q <;> simp [htarget, hsource]

/-- What is prepared is for the pots that currency comes from or goes to, be it none. -/
theorem get?_of_foldlM (h : ts.foldlM b.prepareOne p = .ok p') :
    p'.get? q = none ↔ p.get? q = none ∧ ∀ t ∈ ts, t.source ≠ q ∧ t.target ≠ q := by
  -- On the transfers still to come, whatever was prepared for those before.
  induction ts generalizing p with
  | nil =>
    cases h
    simp
  | cons t rest ih =>
    rw [List.foldlM_cons, bind_eq_ok_iff] at h
    obtain ⟨p₁, hone, hrest⟩ := h
    rw [ih hrest, get?_of_prepareOne hone, List.forall_mem_cons, and_assoc]

/-- No transfer leaves an entry for an account that has nothing. -/
theorem zeroEntry_commit (h : b.prepare ts = .ok p) : (b.commit p).ZeroEntry a ↔
    b.ZeroEntry a ∧ ∀ t ∈ ts, t.source ≠ .account a ∧ t.target ≠ .account a := by
  have htouched := get?_of_foldlM (q := .account a) h
  have hafter := stored_commit b p (.account a)
  rw [Table.get?_empty, and_iff_right rfl] at htouched
  change (b.commit p).balances.get? a = _ at hafter
  rw [ZeroEntry, hafter, ← htouched]
  cases p.get? (.account a) with
  | none => exact (and_iff_left rfl).symm
  | some v =>
    simp only [kept, reduceCtorEq, and_false, iff_false]
    split
    · exact (Option.some_ne_none _).symm
    · next hv => exact fun h => hv (Option.some.inj h)

end Bank

/-- No deposit of nothing is on record. -/
def Journal.NoZeroDeposit (j : Journal) : Prop := ∀ a, Event.deposited a 0 ∉ j.events

namespace Ledger

variable {hash : Hasher} {s s' : Ledger} {operation : Operation} {reply : Reply} {a : AccountId}

/-- An operation leaves the balance of an account alone. -/
def Untouched (s : Ledger) (operation : Operation) (reply : Reply) (a : AccountId) : Prop :=
  (∀ amount, operation ≠ .deposit a amount) ∧
    ∀ t ∈ s.transfers operation reply, t.source ≠ .account a ∧ t.target ≠ .account a

theorem zeroEntry_step (h : Step hash s operation reply s') (a : AccountId) : s'.bank.ZeroEntry a ↔
    (operation = .deposit a 0 ∧ s.bank.balance a = 0) ∨ (s.bank.ZeroEntry a ∧ s.Untouched operation reply a) := by
  cases h with
  -- A deposit writes its entry whatever comes out; all else commits what was prepared, or leaves the bank alone.
  | @deposit account amount _ _ h =>
    refine (Bank.zeroEntry_of_deposit h).trans ?_
    by_cases ha : account = a
    · subst ha
      simp [Untouched]
    · simp [Untouched, transfers, ha]
  | withdraw _ hfunds | mintCar _ hfunds _ | buy _ _ hfunds _ | repair _ hfunds _ =>
    refine (Bank.zeroEntry_commit hfunds).trans ?_
    simp [Untouched, transfers]
  | @setAuthority _ role _ _ => cases role <;> simp [Untouched, transfers, record, appoint]
  | _ => simp [Untouched, transfers, record, setOperator]

theorem deposited_of_zeroEntry (h : Reachable hash s) :
    ∀ a, s.bank.ZeroEntry a → Event.deposited a 0 ∈ s.journal.events := by
  refine invariant_reachable (P := fun s => ∀ a, s.bank.ZeroEntry a → Event.deposited a 0 ∈ s.journal.events)
    (fun hstart => ?_) (fun _ hbefore hstep => ?_) h
  · obtain ⟨-, -, rfl⟩ := genesis_eq_ok_iff.mp hstart
    intro a ha
    cases ha
  · intro a ha
    rcases (zeroEntry_step hstep a).mp ha with ⟨rfl, -⟩ | ⟨hzero, -⟩
    · cases hstep with
      | deposit => simp [record, Journal.events_append]
    · obtain ⟨event, hjournal⟩ := journal_step hstep
      rw [hjournal, Journal.events_append]
      exact List.mem_append_left _ (hbefore a hzero)

/-- What there is to say of the entries of the bank. -/
structure EntriesSettled (hash : Hasher) (s : Ledger) : Prop where
  /-- An account without anything gets an entry where nothing is deposited to it, and keeps it until currency is
  moved from it or to it, be it none. -/
  next : ∀ operation reply s', s.execute hash operation = (.ok reply, s') → ∀ a, s'.bank.ZeroEntry a ↔
    (operation = .deposit a 0 ∧ s.bank.balance a = 0) ∨ (s.bank.ZeroEntry a ∧ s.Untouched operation reply a)
  accepted : ∀ a, ∃ reply s', s.execute hash (.deposit a 0) = (.ok reply, s')
  recorded : ∀ a, s.bank.ZeroEntry a → Event.deposited a 0 ∈ s.journal.events
  exact : s.journal.NoZeroDeposit → ∀ a, (s.bank.balances.get? a).isSome = true ↔ s.bank.balance a ≠ 0
  determined : s.journal.NoZeroDeposit → ∀ hash' t, Reachable hash' t → t.journal.NoZeroDeposit →
    (∀ q, s.bank.potBalance q = t.bank.potBalance q) → s.bank.totalIssued = t.bank.totalIssued → s.bank = t.bank

theorem exists_execute_deposit_zero (hash : Hasher) (s : Ledger) (a : AccountId) :
    ∃ reply s', s.execute hash (.deposit a 0) = (.ok reply, s') := by
  have hdeposit : ∃ answer, s.bank.deposit a 0 = .ok answer :=
    ⟨(s.bank.balance a, _), Bank.deposit_eq_ok_iff.mpr ⟨rfl, s.bank.totalIssued, rfl, rfl⟩⟩
  obtain ⟨⟨balance, bank⟩, hdeposit⟩ := hdeposit
  exact ⟨_, _, execute_eq_ok_iff_step.mpr (.deposit hdeposit)⟩

/-- Accounts with nothing have no entry, but for those to which nothing was deposited; apart from these, balances
say everything about a bank. -/
theorem entries_settled (hs : Reachable hash s) : s.EntriesSettled hash where
  next operation reply s' h := zeroEntry_step (step_of_execute h)
  accepted := exists_execute_deposit_zero hash s
  recorded := deposited_of_zeroEntry hs
  exact hnone a := Bank.isSome_iff_of_not_zeroEntry fun hzero => hnone a (deposited_of_zeroEntry hs a hzero)
  determined hnone hash' t ht hnone' hpots hissued := by
    refine (Bank.eq_iff_zeroEntry hpots hissued).mpr fun a => ?_
    have hzero : ¬ s.bank.ZeroEntry a := fun hzero => hnone a (deposited_of_zeroEntry hs a hzero)
    have hzero' : ¬ t.bank.ZeroEntry a := fun hzero => hnone' a (deposited_of_zeroEntry ht a hzero)
    exact iff_of_false hzero hzero'

namespace Fair

/-- Nothing is deposited to account 1. -/
def credited : Ledger := (opening.execute hasher (.deposit (account 1) 0)).2

theorem reachable_opening : Reachable hasher opening := ⟨account 9, terms, opening, [], rfl, rfl⟩

theorem reachable_credited : Reachable hasher credited := reachable_execute reachable_opening _

/-- Account 1 then pays nothing for a car. -/
def minting : Operation := .mintCar (account 1) ⟨"", [spec .engine, spec .transmission, spec .wheels]⟩ 0

theorem noZeroDeposit_opened : opened.journal.NoZeroDeposit := by
  have hevents : opened.journal.events = [.deposited (account 2) 1000, .carMinted ⟨1⟩ (account 1) 0,
      .operatorApproval (account 1) (account 0) true, .carListed ⟨1⟩ (account 1) 400 ⟨true, true, false⟩] := by
    decide +kernel
  intro a ha
  rw [hevents] at ha
  simp only [List.mem_cons, Event.deposited.injEq, reduceCtorEq, List.not_mem_nil, or_false] at ha
  exact absurd (congrArg Amount.toNat ha.2) (by decide)

end Fair

/-- The entry of account 1 says nothing, and goes when it moves nothing. Where there is no such deposit, account 2
has an entry as it has something. -/
theorem entries_settled_fair : Reachable Fair.hasher Fair.credited ∧
    Event.deposited (Fair.account 1) 0 ∈ Fair.credited.journal.events ∧
    ¬ (Fair.credited.execute Fair.hasher Fair.minting).2.bank.ZeroEntry (Fair.account 1) ∧
    Reachable Fair.hasher Fair.opened ∧ Fair.opened.journal.NoZeroDeposit ∧
    ((Fair.opened.bank.balances.get? (Fair.account 2)).isSome = true ↔
      Fair.opened.bank.balance (Fair.account 2) ≠ 0) := by
  have hsettled := entries_settled Fair.reachable_credited
  have hzero : Fair.credited.bank.ZeroEntry (Fair.account 1) := by
    change _ = _
    decide +kernel
  have hok : (Fair.credited.execute Fair.hasher Fair.minting).1.isOk = true := by decide +kernel
  obtain ⟨reply, hminting⟩ := exists_of_isOk hok
  have hnext := hsettled.next Fair.minting reply _ (Prod.ext hminting rfl) (Fair.account 1)
  refine ⟨Fair.reachable_credited, hsettled.recorded _ hzero, fun hafter => ?_, Fair.reachable_opened,
    Fair.noZeroDeposit_opened, (entries_settled Fair.reachable_opened).exact Fair.noZeroDeposit_opened _⟩
  rcases hnext.mp hafter with ⟨hdeposit, -⟩ | ⟨-, -, hapart⟩
  · cases hdeposit
  · exact (hapart _ List.mem_cons_self).1 rfl

/-- Two banks that are reached, with the same balances, the same treasury and the same total, are not the same, and
neither are the texts that they are saved as. -/
theorem zero_entry_reached : Reachable Fair.hasher Fair.opening ∧ Reachable Fair.hasher Fair.credited ∧
    Fair.credited.bank.balance (Fair.account 1) = 0 ∧
    (Fair.credited.bank.balances.get? (Fair.account 1)).isSome = true ∧
    (∀ a, Fair.credited.bank.balance a = Fair.opening.bank.balance a) ∧
    Fair.credited.bank.treasury = Fair.opening.bank.treasury ∧
    Fair.credited.bank.totalIssued = Fair.opening.bank.totalIssued ∧
    Json.compact (Json.encode Fair.credited.bank) ≠ Json.compact (Json.encode Fair.opening.bank) := by
  have hbank : Fair.credited.bank = ⟨Table.empty.insert (Fair.account 1) 0, 0, 0⟩ := by decide +kernel
  have hbalance (a : AccountId) : Fair.credited.bank.balance a = 0 := by
    rw [hbank, Bank.balance, Table.get?_insert]
    split <;> rfl
  have hsome : (Fair.credited.bank.balances.get? (Fair.account 1)).isSome = true := by
    rw [hbank, Table.get?_insert_self]
    rfl
  refine ⟨Fair.reachable_opening, Fair.reachable_credited, hbalance _, hsome, hbalance, by rw [hbank]; rfl,
    by rw [hbank]; rfl, fun htext => ?_⟩
  have hfits (b : Bank) : (Json.encode b).Fits Json.Reader.depthLimit :=
    (Json.Lossless.fits b).mono (by decide)
  have hsame := Json.Lossless.encode_inj (Json.compact_inj (hfits _) (hfits _) htext)
  rw [hsame] at hsome
  cases hsome

end Ledger

end Paddock
