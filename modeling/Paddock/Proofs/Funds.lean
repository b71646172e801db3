import Paddock.Proofs.Purchase

/-! Whose currency an operation can take: what its caller attached, and the treasury for the operator. -/
namespace Paddock

namespace Bank

variable {ts : List Transfer} {q : Pot}

theorem outgoing_eq_zero (h : ∀ t ∈ ts, t.source ≠ q) : outgoing ts q = 0 := by
  induction ts with
  | nil => rfl
  | cons t rest ih =>
    have hrest := ih fun u hu => h u (List.mem_cons_of_mem t hu)
    have ht : t.source ≠ q := h t List.mem_cons_self
    change (if t.source = q then t.amount.toNat else 0) + outgoing rest q = 0
    rw [if_neg ht, hrest]

theorem exists_source_of_outgoing (h : outgoing ts q ≠ 0) : ∃ t ∈ ts, t.source = q := by
  apply Classical.byContradiction
  intro hnone
  exact h (outgoing_eq_zero fun t ht hsource => hnone ⟨t, ht, hsource⟩)

end Bank

namespace Operation

/-- Who asks for an operation. Nobody asks for a deposit: the currency arrives from outside. -/
def caller? : Operation → Option AccountId
  | deposit .. => none
  | withdraw caller .. | mintCar caller .. | mintPart caller .. | equip caller .. | unequip caller ..
  | replace caller .. | transferPart caller .. | transferCar caller .. | approvePart caller ..
  | approveCar caller .. | approveAll caller .. | list caller .. | cancel caller .. | buy caller ..
  | repair caller .. | wear caller .. | race caller .. | setMintPrice caller ..
  | setRepairPrice caller .. | setFee caller .. | setAuthority caller .. | transferOperator caller ..
  | setBaseUri caller .. => some caller

/-- What the caller attaches to an operation. -/
def payment : Operation → Amount
  | mintCar _ _ payment | buy _ _ payment | repair _ _ payment => payment
  | _ => 0

/-- The currency that arrives from outside. -/
def issuedTo : Operation → Pot → Nat
  | deposit account amount, .account a => if account = a then amount.toNat else 0
  | _, _ => 0

end Operation

namespace Ledger

variable {hash : Hasher} {s s' : Ledger} {operation : Operation} {reply : Reply}
  {answer : Except LedgerError Reply} {a : AccountId} {t : Transfer}

/-- What goes from one pot to another where an operation gives this answer. -/
def transfers (s : Ledger) : Operation → Reply → List Transfer
  | .withdraw caller amount, _ => [⟨.treasury, .account caller, amount.getD s.bank.treasury⟩]
  | .mintCar caller _ payment, _ => [⟨.account caller, .treasury, payment⟩]
  | .repair caller _ payment, _ => [⟨.account caller, .treasury, payment⟩]
  | .buy .., .plan plan => saleTransfers plan
  | _, _ => []

theorem potBalance_of_deposit {b b' : Bank} {account : AccountId} {amount balance : Amount}
    (h : b.deposit account amount = .ok (balance, b')) (q : Pot) :
    (b'.potBalance q).toNat =
      (b.potBalance q).toNat + (Operation.deposit account amount).issuedTo q := by
  obtain ⟨hbalance, issued, -, rfl⟩ := Bank.deposit_eq_ok_iff.mp h
  cases q with
  | treasury => rfl
  | account a =>
    simp only [Bank.potBalance, Bank.balance, Table.get?_insert, Operation.issuedTo]
    by_cases ha : account = a
    · subst ha
      rw [if_pos rfl, if_pos rfl]
      exact hbalance
    · rw [if_neg ha, if_neg ha]
      rfl

/-- The balance of every pot after a step: the transfers, and what arrived from outside. -/
theorem potBalance_step (h : Step hash s operation reply s') (q : Pot) :
    (s'.bank.potBalance q).toNat + Bank.outgoing (s.transfers operation reply) q =
      (s.bank.potBalance q).toNat + Bank.incoming (s.transfers operation reply) q + operation.issuedTo q := by
  cases h with
  | deposit h => exact potBalance_of_deposit h q
  | withdraw _ hfunds | mintCar _ hfunds _ | buy _ _ hfunds _ | repair _ hfunds _ =>
    exact Bank.potBalance_of_prepare hfunds q
  | @setAuthority _ role _ _ => cases role <;> rfl
  | _ => rfl

/-- Only the caller pays, or the treasury where it is withdrawn from. -/
theorem source_of_mem_transfers (h : Step hash s operation reply s') (ht : t ∈ s.transfers operation reply) :
    (∃ caller, operation.caller? = some caller ∧ t.source = .account caller) ∨
      ∃ caller amount, operation = .withdraw caller amount ∧ t.source = .treasury := by
  cases h with
  | withdraw _ _ =>
    obtain rfl := List.mem_singleton.mp ht
    exact .inr ⟨_, _, rfl, rfl⟩
  | mintCar _ _ _ | repair _ _ _ =>
    obtain rfl := List.mem_singleton.mp ht
    exact .inl ⟨_, rfl, rfl⟩
  | buy hplan _ _ _ =>
    obtain ⟨l, car, fee, -, -, -, -, -, -, -, -, rfl⟩ := Market.plan_eq_ok_iff.mp hplan
    simp only [transfers, saleTransfers, List.mem_cons, List.not_mem_nil, or_false] at ht
    rcases ht with rfl | rfl
    · exact .inl ⟨_, rfl, rfl⟩
    · exact .inl ⟨_, rfl, rfl⟩
  | _ => cases ht

theorem balance_le_add_outgoing (h : Step hash s operation reply s') (a : AccountId) :
    (s.bank.balance a).toNat ≤
      (s'.bank.balance a).toNat + Bank.outgoing (s.transfers operation reply) (.account a) := by
  have hbalance := potBalance_step h (.account a)
  change (s'.bank.balance a).toNat + _ = (s.bank.balance a).toNat + _ + _ at hbalance
  omega

theorem balance_le_of_step (h : Step hash s operation reply s') (ha : operation.caller? ≠ some a) :
    (s.bank.balance a).toNat ≤ (s'.bank.balance a).toNat := by
  have hkept : Bank.outgoing (s.transfers operation reply) (.account a) = 0 := by
    refine Bank.outgoing_eq_zero fun t ht hsource => ?_
    rcases source_of_mem_transfers h ht with ⟨caller, hcaller, hpays⟩ | ⟨caller, amount, -, hpays⟩
    · cases hpays.symm.trans hsource
      exact ha hcaller
    · cases hpays.symm.trans hsource
  have hbalance := balance_le_add_outgoing h a
  rwa [hkept, Nat.add_zero] at hbalance

/-- The proceeds and the fee are the price, and that much was attached. -/
theorem sale_le_payment {m : Market} {g : Garage} {buyer : AccountId} {c : CarId} {payment : Amount}
    {plan : PurchasePlan} (hfee : m.feeBps ≤ maxFeeBps) (h : m.plan g buyer c payment = .ok plan) :
    plan.proceeds.toNat + plan.fee.toNat ≤ payment.toNat := by
  obtain ⟨l, car, fee, -, -, hprice, -, -, -, -, hvalue, rfl⟩ := Market.plan_eq_ok_iff.mp h
  have hsplit : (l.price - fee).toNat + fee.toNat = l.price.toNat := sub_add_of_le (fee_le_price hfee hvalue)
  change (l.price - fee).toNat + fee.toNat ≤ payment.toNat
  omega

theorem outgoing_le_payment (hs : s.Coherent) (h : Step hash s operation reply s') (a : AccountId) :
    Bank.outgoing (s.transfers operation reply) (.account a) ≤ operation.payment.toNat := by
  cases h with
  | withdraw _ _ => exact Nat.zero_le _
  | @mintCar caller _ _ _ _ _ _ _ _ | @repair caller _ _ _ _ _ _ _ _ _ =>
    simp only [transfers, Bank.outgoing, List.foldr_cons, List.foldr_nil, Operation.payment]
    split <;> omega
  | buy hplan _ _ _ =>
    have hpaid := sale_le_payment hs.fee hplan
    simp only [transfers, saleTransfers, Bank.outgoing, List.foldr_cons, List.foldr_nil, Operation.payment]
    split <;> omega
  | _ => exact Nat.zero_le _

theorem balance_le_add_payment_of_step (hs : s.Coherent) (h : Step hash s operation reply s')
    (a : AccountId) :
    (s.bank.balance a).toNat ≤ (s'.bank.balance a).toNat + operation.payment.toNat := by
  exact Nat.le_trans (balance_le_add_outgoing h a) (Nat.add_le_add_left (outgoing_le_payment hs h a) _)

/-- Of the treasury only the operator gets anything, and gets all that it loses. -/
theorem withdrawal_of_step (h : Step hash s operation reply s')
    (hless : s'.bank.treasury.toNat < s.bank.treasury.toNat) :
    ∃ amount taken, operation = .withdraw s.operator amount ∧ reply = .amount taken ∧
      s'.bank.treasury.toNat + taken.toNat = s.bank.treasury.toNat ∧
      (s'.bank.balance s.operator).toNat = (s.bank.balance s.operator).toNat + taken.toNat := by
  have htreasury := potBalance_step h .treasury
  change s'.bank.treasury.toNat + _ = s.bank.treasury.toNat + _ + _ at htreasury
  have hpays : Bank.outgoing (s.transfers operation reply) .treasury ≠ 0 := by omega
  obtain ⟨t, ht, hsource⟩ := Bank.exists_source_of_outgoing hpays
  rcases source_of_mem_transfers h ht with ⟨caller, -, hother⟩ | ⟨caller, amount, rfl, -⟩
  · cases hother.symm.trans hsource
  · have hbalance := potBalance_step h (.account caller)
    cases h with
    | withdraw hcaller _ =>
      subst hcaller
      simp only [transfers, Bank.outgoing, Bank.incoming, List.foldr_cons, List.foldr_nil, Bank.potBalance,
        Operation.issuedTo, reduceCtorEq, if_true, if_false, Nat.add_zero] at htreasury hbalance
      exact ⟨amount, _, rfl, rfl, htreasury, hbalance⟩

/-- No operation takes anything from an account other than its caller's. The treasury loses only what the
operator withdraws, and to the operator; and the caller is left without no more than was attached. -/
theorem funds_guarded (hs : Reachable hash s) (h : s.execute hash operation = (answer, s')) :
    (∀ a, operation.caller? ≠ some a → (s.bank.balance a).toNat ≤ (s'.bank.balance a).toNat) ∧
      (s'.bank.treasury.toNat < s.bank.treasury.toNat →
        ∃ amount taken, operation = .withdraw s.operator amount ∧ answer = .ok (.amount taken) ∧
          s'.bank.treasury.toNat + taken.toNat = s.bank.treasury.toNat ∧
          (s'.bank.balance s.operator).toNat = (s.bank.balance s.operator).toNat + taken.toNat) ∧
      ∀ caller, operation.caller? = some caller →
        (s.bank.balance caller).toNat ≤ (s'.bank.balance caller).toNat + operation.payment.toNat := by
  have hcoherent := coherent_reachable hs
  cases answer with
  | error e =>
    obtain rfl := unchanged_of_error hcoherent h
    refine ⟨fun a _ => Nat.le_refl _, fun hless => absurd hless (Nat.lt_irrefl _), fun caller _ => ?_⟩
    exact Nat.le_add_right _ _
  | ok reply =>
    have hstep := step_of_execute h
    refine ⟨fun a ha => balance_le_of_step hstep ha, fun hless => ?_, fun caller _ => ?_⟩
    · obtain ⟨amount, taken, hoperation, rfl, hmoved⟩ := withdrawal_of_step hstep hless
      exact ⟨amount, taken, hoperation, rfl, hmoved⟩
    · exact balance_le_add_payment_of_step hcoherent hstep caller

namespace Fair

/-- The operator takes the fee of the sale. -/
def withdrawal : Operation := .withdraw (account 9) none

def settled : Ledger := (sold.execute hasher withdrawal).2

end Fair

theorem funds_guarded_fair : Reachable Fair.hasher Fair.sold ∧
    Fair.settled.bank.treasury.toNat < Fair.sold.bank.treasury.toNat ∧
    ∃ amount taken, Fair.withdrawal = .withdraw Fair.sold.operator amount ∧
      (Fair.sold.execute Fair.hasher Fair.withdrawal).1 = .ok (.amount taken) ∧
      Fair.settled.bank.treasury.toNat + taken.toNat = Fair.sold.bank.treasury.toNat ∧
      (Fair.settled.bank.balance Fair.sold.operator).toNat =
        (Fair.sold.bank.balance Fair.sold.operator).toNat + taken.toNat := by
  have hsold : Reachable Fair.hasher Fair.sold := reachable_execute Fair.reachable_opened Fair.purchase
  have hless : Fair.settled.bank.treasury.toNat < Fair.sold.bank.treasury.toNat := by decide +kernel
  have hrun : Fair.sold.execute Fair.hasher Fair.withdrawal =
      ((Fair.sold.execute Fair.hasher Fair.withdrawal).1, Fair.settled) := rfl
  exact ⟨hsold, hless, (funds_guarded hsold hrun).2.1 hless⟩

end Ledger

end Paddock
