import Paddock.Proofs.Bank
import Paddock.Proofs.Sale
import Paddock.Proofs.Steps

/-! What the components of a ledger owe to each other, from its beginning and after every step. -/
namespace Paddock.Ledger

variable {hash : Hasher} {s s' : Ledger} {operation : Operation} {reply : Reply}

structure Coherent (s : Ledger) : Prop where
  sound : s.garage.Sound
  backed : s.market.Backed s.garage
  fee : s.market.feeBps ≤ maxFeeBps
  conserved : s.bank.Conserved

/-- What a ledger begins as. -/
def initial (hash : Hasher) (operator : AccountId) (config : LedgerConfig) : Ledger where
  operator := operator
  mintPrice := .ofUInt64 config.mintPrice
  baseUri := ""
  garage := ⟨.new config.maxStat, .new config.maxCondition⟩
  market := { Market.empty hash with feeBps := config.feeBps }
  workshop := .new (.ofUInt64 config.repairPrice) config.repairAmount
  leaderboard := .empty
  bank := .empty
  journal := .empty

theorem genesis_eq_ok_iff {operator : AccountId} {config : LedgerConfig} :
    genesis hash operator config = .ok s ↔
      config.validate = .ok () ∧ config.feeBps ≤ maxFeeBps ∧ initial hash operator config = s := by
  simp only [genesis, bind_eq_ok_iff, mapError_eq_ok_iff, pure_eq_ok_iff, Market.new, Market.setFee_eq_ok_iff]
  constructor
  · rintro ⟨_, hvalid, _, ⟨hfee, rfl⟩, rfl⟩
    exact ⟨hvalid, hfee, rfl⟩
  · rintro ⟨hvalid, hfee, rfl⟩
    exact ⟨(), hvalid, _, ⟨hfee, rfl⟩, rfl⟩

theorem coherent_genesis {operator : AccountId} {config : LedgerConfig}
    (h : genesis hash operator config = .ok s) : s.Coherent := by
  obtain ⟨-, hfee, rfl⟩ := genesis_eq_ok_iff.mp h
  refine ⟨Garage.sound_new _ _, fun c l hl => ?_, hfee, Bank.conserved_empty⟩
  cases hl

theorem exists_genesis {config : LedgerConfig} (h : config.validate = .ok ()) (hash : Hasher)
    (operator : AccountId) : ∃ s, genesis hash operator config = .ok s := by
  have hfee : config.feeBps ≤ maxFeeBps := by
    unfold LedgerConfig.validate at h
    split at h
    · cases h
    · split at h
      · cases h
      · next hfee => exact UInt16.not_lt.mp hfee
  exact ⟨_, genesis_eq_ok_iff.mpr ⟨h, hfee, rfl⟩⟩

/-! ### Slots and marks -/

theorem sound_step (hg : s.garage.Sound) (h : Step hash s operation reply s') : s'.garage.Sound := by
  cases h with
  | mintCar _ _ h =>
    obtain ⟨arranged, hvalid, hcar, -, hroom, rfl⟩ := Garage.mintInPlace_ok_iff.mp h
    obtain ⟨hone, -, -⟩ := Garage.validateMint_eq_ok_iff.mp hvalid
    exact hg.minted hroom hcar _ _ fun t => (hone.get_mem t).2
  | mintPart _ h =>
    obtain ⟨-, hroom, -, rfl⟩ := PartRegistry.mint_eq_ok_iff.mp h
    exact hg.addLoose hroom _ _
  | equip h =>
    obtain ⟨t, car, part, -, hcar, -, hpart, -, hloose, hkind, hslot, rfl⟩ :=
      Garage.equipInPlace_ok_iff.mp h
    exact hg.attached hcar hpart hloose hkind hslot
  | unequip h =>
    obtain ⟨t, car, part, hcar, -, hslot, hpart, -, rfl⟩ := Garage.unequipInPlace_ok_iff.mp h
    exact hg.detached hcar hpart (Garage.slotOf?_eq_some hslot)
  | replace h =>
    obtain ⟨t, car, oldPart, newPart, hcar, -, hslot, hold, -, hnew, -, hloose, hkind, rfl⟩ :=
      Garage.replaceInPlace_ok_iff.mp h
    exact hg.replaced hcar (Garage.slotOf?_eq_some hslot) hold hnew hloose hkind
  | transferPart _ h =>
    obtain ⟨part, hpart, -, -, rfl⟩ := PartRegistry.transferFrom_eq_ok_iff.mp h
    exact hg.handPart hpart _
  | transferCar _ h =>
    obtain ⟨car, hcar, -, rfl⟩ := CarRegistry.transferFrom_eq_ok_iff.mp h
    exact hg.handCar hcar _
  | approvePart h =>
    obtain ⟨part, -, -, rfl⟩ := PartRegistry.approve_eq_ok_iff.mp h
    exact hg.congr (fun _ => rfl) (fun _ => rfl) rfl rfl
  | approveCar h =>
    obtain ⟨car, -, -, rfl⟩ := CarRegistry.approve_eq_ok_iff.mp h
    exact hg.congr (fun _ => rfl) (fun _ => rfl) rfl rfl
  | approveAll => exact hg.congr (fun _ => rfl) (fun _ => rfl) rfl rfl
  | buy hplan _ _ h =>
    obtain ⟨car, -, hdelivered, -⟩ := Market.delivered_of_settle hg hplan h
    exact hdelivered.sound
  | repair _ _ h =>
    obtain ⟨car, condition, hcar, rfl⟩ := Workshop.exists_of_repair h
    exact hg.withCondition hcar _
  | wear h =>
    obtain ⟨car, condition, hcar, rfl⟩ := Workshop.exists_of_wear h
    exact hg.withCondition hcar _
  | @setAuthority _ role _ _ => cases role <;> exact hg
  | _ => exact hg

/-! ### Offers -/

theorem backed_step (hs : s.Coherent) (h : Step hash s operation reply s') :
    s'.market.Backed s'.garage := by
  have hg := hs.sound
  have hm := hs.backed
  -- A change of approvals touches neither owners nor slots.
  have hsame {g' : Garage} (hcars : g'.cars.cars = s.garage.cars.cars)
      (hparts : g'.parts.parts = s.garage.parts.parts) : s.market.Backed g' :=
    hm.keeps fun c => Garage.keeps_of_same (by rw [hcars]) fun _ p _ => by
      rw [Garage.partOwner?, Garage.partOwner?, hparts]
  cases h with
  | mintCar _ _ h =>
    obtain ⟨arranged, -, hcar, -, hroom, rfl⟩ := Garage.mintInPlace_ok_iff.mp h
    exact hm.keeps fun d => hg.keeps_minted hroom hcar _ _ _
  | mintPart _ h =>
    obtain ⟨-, hroom, -, rfl⟩ := PartRegistry.mint_eq_ok_iff.mp h
    exact hm.keeps fun d => hg.keeps_addLoose hroom _ _
  | equip h =>
    obtain ⟨t, car, part, -, hcar, howner, hpart, hmine, -, -, -, rfl⟩ :=
      Garage.equipInPlace_ok_iff.mp h
    exact hm.keeps fun d => Garage.keeps_attached hcar hpart (hmine.trans howner.symm)
  | unequip h =>
    obtain ⟨t, car, part, hcar, -, -, hpart, -, rfl⟩ := Garage.unequipInPlace_ok_iff.mp h
    exact hm.keeps fun d => Garage.keeps_detached hcar hpart
  | replace h =>
    obtain ⟨t, car, oldPart, newPart, hcar, howner, -, hold, hmark, hnew, hmine, hloose, -, rfl⟩ :=
      Garage.replaceInPlace_ok_iff.mp h
    have hne := Garage.ne_of_marked hold hmark hnew hloose
    exact hm.keeps fun d => Garage.keeps_replaced hcar hold hnew hne (hmine.trans howner.symm)
  | transferPart _ h =>
    obtain ⟨part, hpart, -, hloose, rfl⟩ := PartRegistry.transferFrom_eq_ok_iff.mp h
    exact hm.keeps fun d => hg.keeps_handPart hpart hloose _
  | transferCar _ h =>
    obtain ⟨car, hcar, -, rfl⟩ := CarRegistry.transferFrom_eq_ok_iff.mp h
    refine hm.invalidate ?_ fun d hd => Garage.keeps_handCar hcar _ hd
    exact ⟨_, (Garage.get?_handed_car hcar _ _).trans (if_pos rfl)⟩
  | approvePart h =>
    obtain ⟨part, -, -, rfl⟩ := PartRegistry.approve_eq_ok_iff.mp h
    exact hsame rfl rfl
  | approveCar h =>
    obtain ⟨car, -, -, rfl⟩ := CarRegistry.approve_eq_ok_iff.mp h
    exact hsame rfl rfl
  | approveAll => exact hsame rfl rfl
  | list h => exact hm.list h
  | cancel h => exact hm.cancel h
  | setFee _ h => exact hm.setFee h
  | buy hplan _ _ h =>
    obtain ⟨car, -, hdelivered, rfl⟩ := Market.delivered_of_settle hg hplan h
    obtain ⟨l, _, fee, hl, -, -, -, -, -, -, -, rfl⟩ := Market.plan_eq_ok_iff.mp hplan
    exact hm.markSettled hl ⟨_, hdelivered.car_eq⟩ fun d hd => Market.keeps_of_plan hg hplan hdelivered hd
  | repair _ _ h =>
    obtain ⟨car, condition, hcar, rfl⟩ := Workshop.exists_of_repair h
    exact hm.keeps fun d => Garage.keeps_withCondition hcar _
  | wear h =>
    obtain ⟨car, condition, hcar, rfl⟩ := Workshop.exists_of_wear h
    exact hm.keeps fun d => Garage.keeps_withCondition hcar _
  | @setAuthority _ role _ _ => cases role <;> exact hm
  | _ => exact hm

theorem fee_step (hs : s.Coherent) (h : Step hash s operation reply s') :
    s'.market.feeBps ≤ maxFeeBps := by
  have hfee := hs.fee
  cases h with
  | list h =>
    obtain ⟨l, -, rfl⟩ := Market.exists_of_list h
    exact hfee
  | cancel h =>
    obtain ⟨l, -, -, -, rfl⟩ := Market.cancel_eq_ok_iff.mp h
    exact hfee
  | transferCar =>
    change (s.market.invalidate _).feeBps ≤ maxFeeBps
    rw [Market.feeBps_invalidate]
    exact hfee
  | setFee _ h =>
    obtain ⟨hbps, rfl⟩ := Market.setFee_eq_ok_iff.mp h
    exact hbps
  | buy _ _ _ h =>
    obtain ⟨-, rfl⟩ := Market.settleInPlace_ok_iff.mp h
    change (s.market.markSettled _).feeBps ≤ maxFeeBps
    rw [Market.feeBps_markSettled]
    exact hfee
  | @setAuthority _ role _ _ => cases role <;> exact hfee
  | _ => exact hfee

/-! ### Currency -/

theorem conserved_step (hb : s.bank.Conserved) (h : Step hash s operation reply s') :
    s'.bank.Conserved := by
  cases h with
  | deposit h => exact hb.deposit h
  | withdraw _ hfunds => exact hb.commit hfunds
  | mintCar _ hfunds _ => exact hb.commit hfunds
  | buy _ _ hfunds _ => exact hb.commit hfunds
  | repair _ hfunds _ => exact hb.commit hfunds
  | @setAuthority _ role _ _ => cases role <;> exact hb
  | _ => exact hb

theorem coherent_step (hs : s.Coherent) (h : Step hash s operation reply s') : s'.Coherent where
  sound := sound_step hs.sound h
  backed := backed_step hs h
  fee := fee_step hs h
  conserved := conserved_step hs.conserved h

end Paddock.Ledger
