import Paddock.Proofs.Runs

/-! When a purchase goes through, and everything that it then changes. -/
namespace Paddock.Ledger

variable {hash : Hasher} {s s' : Ledger} {c d : CarId} {p : PartId} {t : PartType} {l : Listing}
  {car : Car} {part : Part} {buyer a : AccountId} {payment fee : Amount} {plan : PurchasePlan}
  {g' : Garage} {prepared : Prepared}

/-! ### The price -/

theorem fee_le_price {m : Market} {price : Amount} (hfee : m.feeBps ≤ maxFeeBps)
    (h : m.feeFor price = .ok fee) : fee.toNat ≤ price.toNat := by
  obtain ⟨-, hvalue⟩ := Market.feeFor_eq_ok_iff.mp h
  rw [hvalue]
  have hbps : m.feeBps.toNat ≤ maxFeeBps.toNat := UInt16.le_iff_toNat_le.mp hfee
  calc price.toNat * m.feeBps.toNat / maxFeeBps.toNat
      ≤ price.toNat * maxFeeBps.toNat / maxFeeBps.toNat :=
        Nat.div_le_div_right (Nat.mul_le_mul_left _ hbps)
    _ = price.toNat := Nat.mul_div_cancel _ (by decide)

theorem ensureFunds_eq_ok_iff {b : Bank} {amount : Amount} {u : Unit} :
    b.ensureFunds a amount = .ok u ↔ amount.toNat ≤ (b.balance a).toNat := by
  have hlt : b.balance a < amount ↔ ¬ amount.toNat ≤ (b.balance a).toNat := Nat.not_le.symm
  unfold Bank.ensureFunds
  by_cases h : amount.toNat ≤ (b.balance a).toNat <;> simp [hlt, h]

/-- A buyer who has the price can pay both the seller and the fee, and the credits are in range. -/
theorem exists_prepare_sale {b : Bank} (hb : b.Conserved) (plan : PurchasePlan)
    (hfunds : plan.proceeds.toNat + plan.fee.toNat ≤ (b.balance plan.buyer).toNat) :
    ∃ prepared, b.prepare (saleTransfers plan) = .ok prepared := by
  have hbuyer : b.potBalance (.account plan.buyer) = b.balance plan.buyer := rfl
  obtain ⟨p₁, h₁⟩ := Bank.exists_prepareOne (b := b) (p := Table.empty)
    (t := ⟨.account plan.buyer, .account plan.seller, plan.proceeds⟩) hb.lt (by
      rw [Bank.commit_empty, hbuyer]
      exact Nat.le_trans (Nat.le_add_right _ _) hfunds)
  have hleft := Bank.potBalance_of_prepareOne h₁ (.account plan.buyer)
  simp only [Bank.commit_empty, hbuyer, if_true] at hleft
  obtain ⟨p₂, h₂⟩ := Bank.exists_prepareOne (b := b) (p := p₁)
    (t := ⟨.account plan.buyer, .treasury, plan.fee⟩)
    (by rw [Bank.total_commit_of_prepareOne h₁]; exact hb.lt) (by dsimp only; omega)
  refine ⟨p₂, ?_⟩
  simp only [Bank.prepare, saleTransfers, List.foldlM_cons, List.foldlM_nil, bind_eq_ok_iff,
    pure_eq_ok_iff]
  exact ⟨p₁, h₁, p₂, h₂, rfl⟩

theorem balance_commit_sale {b : Bank} (h : b.prepare (saleTransfers plan) = .ok prepared)
    (a : AccountId) :
    ((b.commit prepared).balance a).toNat +
        (if plan.buyer = a then plan.proceeds.toNat + plan.fee.toNat else 0) =
      (b.balance a).toNat + (if plan.seller = a then plan.proceeds.toNat else 0) := by
  have := Bank.potBalance_of_prepare h (.account a)
  simp only [Bank.outgoing, Bank.incoming, saleTransfers, List.foldr_cons, List.foldr_nil, Pot.account.injEq, reduceCtorEq, if_false, Bank.potBalance] at this
  split <;> simp_all

theorem paid_commit_sale {b : Bank} (h : b.prepare (saleTransfers plan) = .ok prepared)
    (hne : plan.buyer ≠ plan.seller) :
    ((b.commit prepared).balance plan.buyer).toNat + (plan.proceeds.toNat + plan.fee.toNat) =
        (b.balance plan.buyer).toNat ∧
      ((b.commit prepared).balance plan.seller).toNat =
        (b.balance plan.seller).toNat + plan.proceeds.toNat := by
  have hbuyer := balance_commit_sale h plan.buyer
  have hseller := balance_commit_sale h plan.seller
  simp only [hne, Ne.symm hne, if_true, if_false] at hbuyer hseller
  exact ⟨hbuyer, hseller⟩

/-- Who buys from oneself gets the proceeds back and is left without the fee. -/
theorem paid_self_commit_sale {b : Bank} (h : b.prepare (saleTransfers plan) = .ok prepared)
    (heq : plan.buyer = plan.seller) :
    ((b.commit prepared).balance plan.buyer).toNat + plan.fee.toNat = (b.balance plan.buyer).toNat := by
  have hbuyer := balance_commit_sale h plan.buyer
  simp only [← heq, if_true] at hbuyer
  omega

theorem other_balance_commit_sale {b : Bank} (h : b.prepare (saleTransfers plan) = .ok prepared)
    (hbuyer : a ≠ plan.buyer) (hseller : a ≠ plan.seller) :
    (b.commit prepared).balance a = b.balance a := by
  have hbalance := balance_commit_sale h a
  simp only [Ne.symm hbuyer, Ne.symm hseller, if_false] at hbalance
  exact Amount.ext hbalance

theorem treasury_commit_sale {b : Bank} (h : b.prepare (saleTransfers plan) = .ok prepared) :
    (b.commit prepared).treasury.toNat = b.treasury.toNat + plan.fee.toNat := by
  have := Bank.potBalance_of_prepare h .treasury
  simpa [Bank.outgoing, Bank.incoming, saleTransfers, Bank.potBalance] using this

/-! ### What a purchase changes -/

/-- The purchase of the car `c` under the offer `l`, from `s` to `s'`. -/
structure Purchased (s : Ledger) (c : CarId) (l : Listing) (buyer : AccountId) (payment : Amount)
    (plan : PurchasePlan) (s' : Ledger) : Prop where
  seller_eq : plan.seller = l.seller
  buyer_eq : plan.buyer = buyer
  price_eq : plan.price = l.price
  fee_eq : plan.fee.toNat = l.price.toNat * s.market.feeBps.toNat / 10000
  fee_le : plan.fee.toNat ≤ l.price.toNat
  proceeds_eq : plan.proceeds.toNat + plan.fee.toNat = l.price.toNat
  refund_eq : plan.refund.toNat + l.price.toNat = payment.toNat
  /-- The car is the buyer's and holds the parts of the offer, in the slots of the offer. -/
  car_sold : ∃ car, s.garage.cars.cars.get? c = some car ∧
    s'.garage.cars.cars.get? c = some { car with owner := buyer, slots := l.parts }
  selected_iff : ∀ t, (l.parts.get t).isSome = l.included.get t
  part_sold : ∀ t p, l.parts.get t = some p → ∃ part, s.garage.parts.parts.get? p = some part ∧
    part.equippedTo = some c ∧ s'.garage.parts.parts.get? p = some { part with owner := buyer }
  part_released : ∀ car t p, s.garage.cars.cars.get? c = some car → l.included.get t = false →
    car.slots.get t = some p → ∃ part, s.garage.parts.parts.get? p = some part ∧
      s'.garage.parts.parts.get? p = some { part with equippedTo := none }
  equipped_owned : ∀ p part, s'.garage.parts.parts.get? p = some part → part.equippedTo = some c →
    part.owner = buyer
  other_cars : ∀ d, d ≠ c → s'.garage.cars.cars.get? d = s.garage.cars.cars.get? d
  other_parts : ∀ car p, s.garage.cars.cars.get? c = some car → (∀ t, car.slots.get t ≠ some p) →
    s'.garage.parts.parts.get? p = s.garage.parts.parts.get? p
  paid : buyer ≠ l.seller →
    (s'.bank.balance buyer).toNat + l.price.toNat = (s.bank.balance buyer).toNat ∧
      (s'.bank.balance l.seller).toNat =
        (s.bank.balance l.seller).toNat + (l.price.toNat - plan.fee.toNat)
  paid_self : buyer = l.seller →
    (s'.bank.balance buyer).toNat + plan.fee.toNat = (s.bank.balance buyer).toNat
  treasury_eq : s'.bank.treasury.toNat = s.bank.treasury.toNat + plan.fee.toNat
  other_balances : ∀ a, a ≠ buyer → a ≠ l.seller → s'.bank.balance a = s.bank.balance a
  issued_eq : s'.bank.totalIssued = s.bank.totalIssued
  settled : s'.market.listing? c = some { l with state := .settled buyer }
  other_listings : ∀ d, d ≠ c → s'.market.listing? d = s.market.listing? d
  market_eq : s'.market.account = s.market.account ∧ s'.market.feeBps = s.market.feeBps
  fixtures_eq : s'.garage.fixtures = s.garage.fixtures
  settings_eq : s'.operator = s.operator ∧ s'.mintPrice = s.mintPrice ∧ s'.baseUri = s.baseUri
  workshop_eq : s'.workshop = s.workshop
  leaderboard_eq : s'.leaderboard = s.leaderboard

theorem sub_add_of_le {x y : Amount} (h : y.toNat ≤ x.toNat) : (x - y).toNat + y.toNat = x.toNat := by
  rw [Amount.toNat_sub_of_le h]
  exact Nat.sub_add_cancel h

theorem purchased_of_buy (hs : s.Coherent) (hl : s.market.listing? c = some l)
    (h : buy hash buyer c payment s = .ok plan s') : Purchased s c l buyer payment plan s' := by
  obtain ⟨hplan, -, prepared, market, garage, hfunds, hsettle, rfl⟩ := buy_ok_iff.mp h
  obtain ⟨car, hcar, hdelivered, rfl⟩ := Market.delivered_of_settle hs.sound hplan hsettle
  obtain ⟨l', car', fee, hl', -, hprice, hcar', -, -, hready, hfee, rfl⟩ := Market.plan_eq_ok_iff.mp hplan
  obtain rfl := Option.some.inj (hl.symm.trans hl')
  obtain rfl := Option.some.inj (hcar.symm.trans hcar')
  have hbundle := (hs.backed c l hl).bundle
  have hle := fee_le_price hs.fee hfee
  have hsplit : (l.price - fee).toNat + fee.toNat = l.price.toNat := sub_add_of_le hle
  have hmarket : s.market.markSettled (Market.planFor l car c buyer payment fee) =
      s.market.setState c l (.settled buyer) := Market.markSettled_eq hl
  exact {
    seller_eq := rfl
    buyer_eq := rfl
    price_eq := rfl
    fee_eq := (Market.feeFor_eq_ok_iff.mp hfee).2
    fee_le := hle
    proceeds_eq := hsplit
    refund_eq := sub_add_of_le hprice
    car_sold := by
      refine ⟨car, hcar, hdelivered.car_eq.trans ?_⟩
      simp only [Market.planFor, Market.emptied_releasedSlots hbundle hready]
    selected_iff := hbundle
    part_sold := fun t p ht =>
      Market.part_sold_of_delivered hs.sound hcar hbundle hready hdelivered ht
    part_released := fun car' t p hcar' hincluded hslot => by
      obtain rfl := Option.some.inj (hcar.symm.trans hcar')
      exact Market.part_released_of_delivered hs.sound hcar hbundle hready hdelivered hincluded hslot
    equipped_owned := fun p part hpart hmark =>
      Market.part_owner_of_delivered hs.sound hcar hbundle hready hdelivered hpart hmark
    other_cars := fun d hd => hdelivered.others d (Ne.symm hd)
    other_parts := fun car' p hcar' hslots => by
      obtain rfl := Option.some.inj (hcar.symm.trans hcar')
      exact Market.part_kept_of_delivered hready hdelivered hslots
    paid := fun hne => by
      obtain ⟨hbuyer, hseller⟩ := paid_commit_sale hfunds hne
      simp only [Market.planFor] at hbuyer hseller
      constructor
      · change ((s.bank.commit prepared).balance buyer).toNat + _ = _
        omega
      · change ((s.bank.commit prepared).balance l.seller).toNat = _ + (_ - fee.toNat)
        omega
    paid_self := paid_self_commit_sale hfunds
    treasury_eq := treasury_commit_sale hfunds
    other_balances := fun a hbuyer hseller => other_balance_commit_sale hfunds hbuyer hseller
    issued_eq := Bank.totalIssued_commit _ _
    settled := by
      change (s.market.markSettled _).listing? c = _
      rw [hmarket]
      exact Table.get?_insert_self _ _ _
    other_listings := fun d hd => by
      change (s.market.markSettled _).listing? d = _
      rw [hmarket]
      exact Table.get?_insert_ne _ _ (Ne.symm hd)
    market_eq := by
      change (s.market.markSettled _).account = _ ∧ (s.market.markSettled _).feeBps = _
      rw [hmarket]
      exact ⟨rfl, rfl⟩
    fixtures_eq := hdelivered.fixtures
    settings_eq := ⟨rfl, rfl, rfl⟩
    workshop_eq := rfl
    leaderboard_eq := rfl }

/-- What a purchase makes of any ledger that operations lead to. Only an active offer can be bought
under, so nothing is asked of its state. -/
theorem purchased_of_execute (hs : Reachable hash s) (hl : s.market.listing? c = some l)
    (h : s.execute hash (.buy buyer c payment) = (.ok (.plan plan), s')) :
    Purchased s c l buyer payment plan s' := by
  have hbuy := execute_eq_ok_iff.mp h
  simp only [perform, Change.map_ok_iff, Reply.plan.injEq] at hbuy
  obtain ⟨_, hbuy, rfl⟩ := hbuy
  exact purchased_of_buy (coherent_reachable hs) hl hbuy

namespace Fair

def offer : Listing :=
  ⟨⟨1⟩, account 1, 400, ⟨true, true, false⟩, ⟨some ⟨1⟩, some ⟨2⟩, none⟩, .active⟩

/-- A fortieth of the price is the fee, and the wheels stay with account 1. -/
def deal : PurchasePlan :=
  ⟨⟨1⟩, account 1, account 2, 400, 10, 390, 100, [⟨1⟩, ⟨2⟩], [.wheels]⟩

def sold : Ledger := (opened.execute hasher purchase).2

theorem execute_purchase : opened.execute hasher purchase = (.ok (.plan deal), sold) := by
  have h : (opened.execute hasher purchase).1.toOption = some (.plan deal) := by decide +kernel
  refine Prod.ext ?_ rfl
  cases hanswer : (opened.execute hasher purchase).1 with
  | ok reply => simpa [hanswer, Except.toOption] using h
  | error e => simp [hanswer, Except.toOption] at h

end Fair

theorem purchased_of_execute_fair : Reachable Fair.hasher Fair.opened ∧
    Fair.opened.market.listing? ⟨1⟩ = some Fair.offer ∧
    Fair.opened.execute Fair.hasher (.buy (Fair.account 2) ⟨1⟩ 500) = (.ok (.plan Fair.deal), Fair.sold) ∧
    Purchased Fair.opened ⟨1⟩ Fair.offer (Fair.account 2) 500 Fair.deal Fair.sold :=
  have hoffer : Fair.opened.market.listing? ⟨1⟩ = some Fair.offer := by decide +kernel
  ⟨Fair.reachable_opened, hoffer, Fair.execute_purchase,
    purchased_of_execute Fair.reachable_opened hoffer Fair.execute_purchase⟩

/-! ### When it goes through -/

/-- A plan and the funds to attach are all that it takes. -/
theorem carried_out_of_plan (hs : s.Coherent) (hplan : s.market.plan s.garage buyer c payment = .ok plan)
    (hpayment : s.bank.ensureFunds buyer payment = .ok ()) :
    ∃ prepared garage, s.bank.prepare (saleTransfers plan) = .ok prepared ∧
      Market.settleInPlace plan (s.market, s.garage) = .ok () (s.market.markSettled plan, garage) := by
  obtain ⟨_, g', -, hrun, -⟩ := Market.exists_delivered_of_plan hs.sound hplan
  obtain ⟨l, car, fee, -, -, hprice, -, -, -, -, hfee, rfl⟩ := Market.plan_eq_ok_iff.mp hplan
  have hle := fee_le_price hs.fee hfee
  have hsplit : (l.price - fee).toNat + fee.toNat = l.price.toNat := sub_add_of_le hle
  have hbalance := ensureFunds_eq_ok_iff.mp hpayment
  obtain ⟨prepared, hprepared⟩ := exists_prepare_sale hs.conserved
    (Market.planFor l car c buyer payment fee) (by
      change (l.price - fee).toNat + fee.toNat ≤ (s.bank.balance buyer).toNat
      omega)
  exact ⟨prepared, g', hprepared, Market.settleInPlace_ok_iff.mpr ⟨hrun, rfl⟩⟩

theorem exists_plan_iff (hs : s.Coherent) :
    (∃ plan, s.market.plan s.garage buyer c payment = .ok plan) ↔
      ∃ l car, s.market.listing? c = some l ∧ l.state = .active ∧ l.price.toNat ≤ payment.toNat ∧
        s.garage.cars.cars.get? c = some car ∧
        (∀ t, l.included.get t = true → ∃ p, l.parts.get t = some p ∧ car.slots.get t = some p) ∧
        (∃ status, s.market.approvalStatus s.garage c l.included = .ok status ∧ status.all = true) ∧
        l.price.toNat * s.market.feeBps.toNat < amountBound := by
  simp only [Market.plan_eq_ok_iff, Market.approved_iff]
  constructor
  · rintro ⟨plan, l, car, fee, hl, hactive, hprice, hcar, -, hmay, hready, hfee, rfl⟩
    have hbundle := (hs.backed c l hl).bundle
    have hheld (t) (ht : l.included.get t = true) :
        ∃ p, l.parts.get t = some p ∧ s.market.Ready s.garage l.seller car (t, p) := by
      obtain ⟨p, hp⟩ := Option.isSome_iff_exists.mp ((hbundle t).trans ht)
      exact ⟨p, hp, hready (t, p) (Listing.mem_bundled.mpr hp)⟩
    refine ⟨l, car, hl, hactive, hprice, hcar, fun t ht => ?_, ⟨car, hcar, hmay, fun t ht => ?_⟩, ?_⟩
    · obtain ⟨p, hp, hslot, -⟩ := hheld t ht
      exact ⟨p, hp, hslot⟩
    · obtain ⟨p, -, hslot, part, hpart, -, hauthorized⟩ := hheld t ht
      exact ⟨p, part, hslot, hpart, hauthorized⟩
    · have := (Market.feeFor_eq_ok_iff.mp hfee).1
      omega
  · rintro ⟨l, car, hl, hactive, hprice, hcar, hslots, ⟨car', hcar', hmay, happroved⟩, hfits⟩
    obtain rfl := Option.some.inj (hcar.symm.trans hcar')
    obtain ⟨hseller, howned⟩ := (hs.backed c l hl).owned hactive car hcar
    have hbundle := (hs.backed c l hl).bundle
    refine ⟨_, l, car, ⟨l.price.toNat * s.market.feeBps.toNat / maxFeeBps.toNat, ?_⟩, hl, hactive, hprice, hcar,
      hseller, hmay, ?_, Market.feeFor_eq_ok_iff.mpr ⟨by omega, rfl⟩, rfl⟩
    · exact Nat.lt_of_le_of_lt (Nat.div_le_self _ _) (by omega)
    · rintro ⟨t, p⟩ hp
      have hp := Listing.mem_bundled.mp hp
      have hincluded : l.included.get t = true := by rw [← hbundle, hp]; rfl
      obtain ⟨q, hq, hslot⟩ := hslots t hincluded
      obtain rfl := Option.some.inj (hp.symm.trans hq)
      obtain ⟨r, part, hslot', hpart, hauthorized⟩ := happroved t hincluded
      obtain rfl := Option.some.inj (hslot.symm.trans hslot')
      have howner := howned t p hp hslot
      simp only [Garage.partOwner?, hpart, Option.map_some, Option.some.injEq] at howner
      exact ⟨hslot, part, hpart, howner, hauthorized⟩

/-- A purchase goes through exactly where the offer stands, the attached payment is enough and
there, and the market may move all that is sold. What comes after the plan cannot fail. -/
theorem buy_succeeds_iff (hs : Reachable hash s) (buyer : AccountId) (c : CarId) (payment : Amount) :
    ((∃ reply s', s.execute hash (.buy buyer c payment) = (.ok reply, s')) ↔
      ∃ l car, s.market.listing? c = some l ∧ l.state = .active ∧ l.price.toNat ≤ payment.toNat ∧
        s.garage.cars.cars.get? c = some car ∧
        (∀ t, l.included.get t = true → ∃ p, l.parts.get t = some p ∧ car.slots.get t = some p) ∧
        (∃ status, s.market.approvalStatus s.garage c l.included = .ok status ∧ status.all = true) ∧
        l.price.toNat * s.market.feeBps.toNat < amountBound ∧
        payment.toNat ≤ (s.bank.balance buyer).toNat) ∧
    ∀ plan, s.market.plan s.garage buyer c payment = .ok plan →
      s.bank.ensureFunds buyer payment = .ok () →
        (∃ prepared, s.bank.prepare (saleTransfers plan) = .ok prepared) ∧
          (s.market.settle s.garage plan).2.2 = none := by
  have hcoherent := coherent_reachable hs
  refine ⟨⟨?_, ?_⟩, fun plan hplan hpayment => ?_⟩
  · rintro ⟨reply, s', h⟩
    cases step_of_execute h with
    | buy hplan hpayment _ _ =>
      obtain ⟨l, car, hl, hactive, hprice, hcar, hslots, happroved, hfits⟩ :=
        (exists_plan_iff hcoherent).mp ⟨_, hplan⟩
      exact ⟨l, car, hl, hactive, hprice, hcar, hslots, happroved, hfits, ensureFunds_eq_ok_iff.mp hpayment⟩
  · rintro ⟨l, car, hl, hactive, hprice, hcar, hslots, happroved, hfits, hfunds⟩
    obtain ⟨plan, hplan⟩ := (exists_plan_iff hcoherent).mpr
      ⟨l, car, hl, hactive, hprice, hcar, hslots, happroved, hfits⟩
    have hpayment : s.bank.ensureFunds buyer payment = .ok () := ensureFunds_eq_ok_iff.mpr hfunds
    obtain ⟨prepared, garage, hprepared, hsettle⟩ := carried_out_of_plan hcoherent hplan hpayment
    exact ⟨.plan plan, _, execute_eq_ok_iff.mpr (Change.map_ok_iff.mpr
      ⟨plan, buy_ok_iff.mpr ⟨hplan, hpayment, prepared, _, garage, hprepared, hsettle, rfl⟩, rfl⟩)⟩
  · obtain ⟨prepared, garage, hprepared, hsettle⟩ := carried_out_of_plan hcoherent hplan hpayment
    exact ⟨⟨prepared, hprepared⟩, by rw [Market.settle, hsettle]⟩

theorem buy_succeeds_iff_fair : Reachable Fair.hasher Fair.opened ∧
    ∀ plan, Fair.opened.market.plan Fair.opened.garage (Fair.account 2) ⟨1⟩ 500 = .ok plan →
      Fair.opened.bank.ensureFunds (Fair.account 2) 500 = .ok () →
        (∃ prepared, Fair.opened.bank.prepare (saleTransfers plan) = .ok prepared) ∧
          (Fair.opened.market.settle Fair.opened.garage plan).2.2 = none :=
  ⟨Fair.reachable_opened, (buy_succeeds_iff Fair.reachable_opened (Fair.account 2) ⟨1⟩ 500).2⟩

end Paddock.Ledger
