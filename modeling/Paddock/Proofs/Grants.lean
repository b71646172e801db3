import Paddock.Proofs.History
import Paddock.Proofs.Movement
import Paddock.Proofs.Funds
import Paddock.Proofs.Upkeep

/-! Whose word it takes to be allowed to move a token: its owner's, and the owner of today's. -/
namespace Paddock

/-! ### The two tables of approvals -/

namespace Approvals

variable {κ : Type} [Key κ]

theorem approved_approve [DecidableEq κ] (a : Approvals κ) (id : κ) (account : Option AccountId) (other : κ) :
    (a.approve id account).approved other = if id = other then account else a.approved other := by
  cases account with
  | none => exact Table.get?_erase a.token id other
  | some account => exact Table.get?_insert a.token id other account

theorem operators_approve (a : Approvals κ) (id : κ) (account : Option AccountId) :
    (a.approve id account).operators = a.operators := by
  cases account <;> rfl

theorem token_setOperator (a : Approvals κ) (owner operator : AccountId) (approved : Bool) :
    (a.setOperator owner operator approved).token = a.token := by
  unfold setOperator
  split
  · rfl
  · split
    · rfl
    · dsimp only
      split <;> rfl

/-- The entry of an owner goes with the last operator, but nobody is in it then anyway. -/
theorem get?_operatorsOf_setOperator (a : Approvals κ) (owner operator : AccountId) (approved : Bool)
    (o x : AccountId) : ((a.setOperator owner operator approved).operatorsOf o).get? x =
      if owner = o ∧ operator = x then (if approved then some () else none) else (a.operatorsOf o).get? x := by
  by_cases ho : owner = o
  · subst ho
    simp only [true_and]
    cases approved with
    | true => simp [setOperator, operatorsOf, Table.get?_insert]
    | false =>
      cases hset : a.operators.get? owner with
      | none => simp [setOperator, operatorsOf, hset, Table.get?_empty]
      | some set =>
        have hrest := Table.get?_erase set operator x
        by_cases hempty : (set.erase operator).isEmpty = true
        · have hnone : (set.erase operator).get? x = none := by
            rw [Table.get?, List.isEmpty_iff.mp hempty]
            rfl
          simp only [setOperator, operatorsOf, hset, hempty]
          simp [Table.get?_erase, Table.get?_empty, ← hrest, hnone]
        · simp only [setOperator, operatorsOf, hset, hempty]
          simp [Table.get?_insert, hrest]
  · have hother : (a.setOperator owner operator approved).operators.get? o = a.operators.get? o := by
      unfold setOperator
      split
      · exact Table.get?_insert_ne _ _ ho
      · split
        · rfl
        · dsimp only
          split
          · exact (Table.get?_erase _ _ _).trans (if_neg ho)
          · exact Table.get?_insert_ne _ _ ho
    rw [operatorsOf, hother, if_neg fun h => ho h.1, operatorsOf]

theorem isOperator_setOperator (a : Approvals κ) (owner operator : AccountId) (approved : Bool)
    (o x : AccountId) : (a.setOperator owner operator approved).isOperator o x =
      if owner = o ∧ operator = x then approved else a.isOperator o x := by
  unfold isOperator Table.contains
  rw [get?_operatorsOf_setOperator]
  split
  · cases approved <;> rfl
  · rfl

theorem isOperator_of_setOperator {a : Approvals κ} {owner operator o x : AccountId} {approved : Bool}
    (h : (a.setOperator owner operator approved).isOperator o x = true) :
    a.isOperator o x = true ∨ (owner = o ∧ operator = x ∧ approved = true) := by
  rw [isOperator_setOperator] at h
  split at h
  · next hsame => exact .inr ⟨hsame.1, hsame.2, h⟩
  · exact .inl h

end Approvals

/-! ### Cars and parts alike -/

namespace Garage

variable {g g' g'' : Garage} {a : Asset} {c : CarId} {p : PartId} {car : Car} {part : Part} {x owner : AccountId}

def holder? (g : Garage) : Asset → Option AccountId
  | .car c => g.carOwner? c
  | .part p => g.partOwner? p

/-- The account that is approved for this token alone. -/
def approved? (g : Garage) : Asset → Option AccountId
  | .car c => g.cars.approvals.approved c
  | .part p => g.parts.approvals.approved p

def isOperator (g : Garage) : Asset → AccountId → AccountId → Bool
  | .car _ => g.cars.approvals.isOperator
  | .part _ => g.parts.approvals.isOperator

/-- The token is there, and its registry says that the account may move it. -/
def Permits (g : Garage) : Asset → AccountId → Prop
  | .car c, x => g.cars.isAuthorized c x = .ok true
  | .part p, x => g.parts.isAuthorized p x = .ok true

theorem permits_iff : g.Permits a x ↔
    ∃ owner, g.holder? a = some owner ∧ (x = owner ∨ g.approved? a = some x ∨ g.isOperator a owner x = true) := by
  cases a with
  | car c =>
    simp only [Permits, CarRegistry.isAuthorized_eq_ok_iff, holder?, carOwner?, Option.map_eq_some_iff,
      Approvals.isAuthorized_iff, Approvals.Entitles]
    constructor
    · rintro ⟨car, hcar, hmay⟩
      exact ⟨car.owner, ⟨car, hcar, rfl⟩, hmay⟩
    · rintro ⟨_, ⟨car, hcar, rfl⟩, hmay⟩
      exact ⟨car, hcar, hmay⟩
  | part p =>
    simp only [Permits, PartRegistry.isAuthorized_eq_ok_iff, holder?, partOwner?, Option.map_eq_some_iff,
      Approvals.isAuthorized_iff, Approvals.Entitles]
    constructor
    · rintro ⟨part, hpart, hmay⟩
      exact ⟨part.owner, ⟨part, hpart, rfl⟩, hmay⟩
    · rintro ⟨_, ⟨part, hpart, rfl⟩, hmay⟩
      exact ⟨part, hpart, hmay⟩

/-- The token stays with its owner and keeps its approval, or has none any more. -/
def Lapses (g g' : Garage) (a : Asset) : Prop :=
  (g'.approved? a = g.approved? a ∧ g'.holder? a = g.holder? a) ∨ g'.approved? a = none

theorem Lapses.refl (g : Garage) (a : Asset) : g.Lapses g a := .inl ⟨rfl, rfl⟩

theorem Lapses.trans (h : g.Lapses g' a) (h' : g'.Lapses g'' a) : g.Lapses g'' a := by
  rcases h' with ⟨happroved', hholder'⟩ | hnone
  · rcases h with ⟨happroved, hholder⟩ | hnone
    · exact .inl ⟨happroved'.trans happroved, hholder'.trans hholder⟩
    · exact .inr (happroved'.trans hnone)
  · exact .inr hnone

theorem lapses_detached {t : PartType} (hcar : g.cars.cars.get? c = some car)
    (hpart : g.parts.parts.get? p = some part) : g.Lapses (g.detached c car t p part) a := by
  refine .inl ⟨?_, ?_⟩
  · cases a <;> rfl
  · cases a with
    | car d => exact CarRegistry.map_put Car.owner hcar _ (by rfl) d
    | part q => exact partOwner?_detached hpart q

theorem lapses_handed_part (g : Garage) (p : PartId) (part : Part) (target : AccountId) (a : Asset) :
    g.Lapses { g with parts := g.parts.handed p part target } a := by
  unfold PartRegistry.handed
  split
  · exact .refl g a
  · cases a with
    | car d => exact .inl ⟨rfl, rfl⟩
    | part q =>
      by_cases hq : p = q
      · subst hq
        exact .inr ((Approvals.approved_approve _ _ _ _).trans (if_pos rfl))
      · refine .inl ⟨(Approvals.approved_approve _ _ _ _).trans (if_neg hq), ?_⟩
        exact congrArg (Option.map Part.owner) (Table.get?_insert_ne _ _ hq)

theorem lapses_handed_car (g : Garage) (c : CarId) (car : Car) (target : AccountId) (a : Asset) :
    g.Lapses { g with cars := g.cars.handed c car target } a := by
  unfold CarRegistry.handed
  split
  · exact .refl g a
  · cases a with
    | part q => exact .inl ⟨rfl, rfl⟩
    | car d =>
      by_cases hd : c = d
      · subst hd
        exact .inr ((Approvals.approved_approve _ _ _ _).trans (if_pos rfl))
      · refine .inl ⟨(Approvals.approved_approve _ _ _ _).trans (if_neg hd), ?_⟩
        exact congrArg (Option.map Car.owner) (Table.get?_insert_ne _ _ hd)

theorem lapses_handOver {plan : PurchasePlan} {u : Unit} (h : Market.handOver plan g = .ok u g') :
    g.Lapses g' a := by
  -- What the delivery has done so far, seen from the garage it began with.
  have hkeeps : (Market.handOver plan).Keeps (g.Lapses · a) :=
    keeps_handOver (fun h hcar hpart => h.trans (lapses_detached hcar hpart)) plan
      (fun h _ => h.trans (lapses_handed_part _ _ _ _ a)) fun h _ => h.trans (lapses_handed_car _ _ _ _ a)
  exact hkeeps (.refl g a) h

def operatorTable (g : Garage) : Asset → Table AccountId (KeySet AccountId)
  | .car _ => g.fixtures.carOperators
  | .part _ => g.fixtures.partOperators

theorem isOperator_congr (h : g'.operatorTable a = g.operatorTable a) : g'.isOperator a = g.isOperator a := by
  funext owner x
  cases a with
  | car c => exact congrArg (fun t => ((t.get? owner).getD Table.empty).contains x) h
  | part p => exact congrArg (fun t => ((t.get? owner).getD Table.empty).contains x) h

theorem operatorTable_of_fixtures (h : g'.fixtures = g.fixtures) : g'.operatorTable a = g.operatorTable a := by
  cases a with
  | car c => exact congrArg Fixtures.carOperators h
  | part p => exact congrArg Fixtures.partOperators h

/-- There are no approvals ahead of the tokens they are for. -/
def Unclaimed (g : Garage) : Prop := ∀ a, g.holder? a = none → g.approved? a = none

end Garage

namespace Operation

/-- The token that an operation sets the approved account of, and the account. -/
def approval? : Operation → Option (Asset × Option AccountId)
  | approveCar _ car account => some (.car car, account)
  | approvePart _ part account => some (.part part, account)
  | _ => none

/-- Operations that hand nothing over and approve nobody. -/
def Silent : Operation → Prop
  | approveCar .. | approvePart .. | approveAll .. | transferCar .. | transferPart .. | buy .. => False
  | _ => True

end Operation

namespace Ledger

variable {hash : Hasher} {s s' start : Ledger} {a : Asset} {x y owner caller operator : AccountId}
  {operation last : Operation} {operations done : List Operation} {reply : Reply} {config : LedgerConfig}

/-! ### Steps -/

/-- How a token comes to belong to someone else. -/
def AssetMoved (s : Ledger) (a : Asset) (source target : AccountId) (operation : Operation) : Prop :=
  match a with
  | .car c => CarMoved s c source target operation
  | .part p => PartMoved s p source target operation

theorem holder?_step (hs : s.Coherent) (h : Step hash s operation reply s')
    (howner : s.garage.holder? a = some owner) :
    ∃ y, s'.garage.holder? a = some y ∧ (y ≠ owner → AssetMoved s a owner y operation) := by
  cases a with
  | car c =>
    obtain ⟨y, hy, hmoved, -⟩ := car_step hs h howner
    exact ⟨y, hy, hmoved⟩
  | part p => exact part_step hs h howner

/-- What an operation does to the approval of one token. -/
inductive ApprovalStep (s s' : Ledger) (a : Asset) (operation : Operation) : Prop
  | lapses (hother : ∀ account, operation.approval? ≠ some (a, account)) (h : s.garage.Lapses s'.garage a)
  | set {account : Option AccountId} {caller owner : AccountId} (hsets : operation.approval? = some (a, account))
      (hcaller : operation.caller? = some caller) (howner : s.garage.holder? a = some owner)
      (hright : caller = owner ∨ s.garage.isOperator a owner caller = true)
      (happroved : s'.garage.approved? a = account) (hkept : s'.garage.holder? a = some owner)

theorem approvals_of_silent (hsilent : operation.Silent) (h : Step hash s operation reply s') :
    s'.garage.cars.approvals = s.garage.cars.approvals ∧ s'.garage.parts.approvals = s.garage.parts.approvals := by
  cases h with
  | approveCar | approvePart | approveAll | transferCar | transferPart | buy => exact hsilent.elim
  | mintCar _ _ h =>
    obtain ⟨_, -, -, -, -, rfl⟩ := Garage.mintInPlace_ok_iff.mp h
    exact ⟨rfl, rfl⟩
  | mintPart _ h =>
    obtain ⟨-, -, -, rfl⟩ := PartRegistry.mint_eq_ok_iff.mp h
    exact ⟨rfl, rfl⟩
  | equip h =>
    obtain ⟨_, _, _, -, -, -, -, -, -, -, -, rfl⟩ := Garage.equipInPlace_ok_iff.mp h
    exact ⟨rfl, rfl⟩
  | unequip h =>
    obtain ⟨_, _, _, -, -, -, -, -, rfl⟩ := Garage.unequipInPlace_ok_iff.mp h
    exact ⟨rfl, rfl⟩
  | replace h =>
    obtain ⟨_, _, _, _, -, -, -, -, -, -, -, -, -, rfl⟩ := Garage.replaceInPlace_ok_iff.mp h
    exact ⟨rfl, rfl⟩
  | repair _ _ h =>
    obtain ⟨_, _, -, rfl⟩ := Workshop.exists_of_repair h
    exact ⟨rfl, rfl⟩
  | wear h =>
    obtain ⟨_, _, -, rfl⟩ := Workshop.exists_of_wear h
    exact ⟨rfl, rfl⟩
  | @setAuthority _ role _ _ => cases role <;> exact ⟨rfl, rfl⟩
  | _ => exact ⟨rfl, rfl⟩

theorem not_moved_of_silent (hsilent : operation.Silent) (source target : AccountId) :
    ¬ AssetMoved s a source target operation := by
  intro hmoved
  cases a with
  | car c => cases hmoved <;> exact hsilent
  | part p => cases hmoved <;> exact hsilent

/-- What was approved stays approved, and a token that is new has no approval yet. -/
theorem lapses_of_silent (hs : s.Coherent) (hunclaimed : s.garage.Unclaimed) (hsilent : operation.Silent)
    (h : Step hash s operation reply s') : s.garage.Lapses s'.garage a := by
  obtain ⟨hcars, hparts⟩ := approvals_of_silent hsilent h
  have happroved : s'.garage.approved? a = s.garage.approved? a := by
    cases a with
    | car c => exact congrArg (·.approved c) hcars
    | part p => exact congrArg (·.approved p) hparts
  cases howner : s.garage.holder? a with
  | none => exact .inr (happroved.trans (hunclaimed a howner))
  | some owner =>
    obtain ⟨y, hy, hmoved⟩ := holder?_step hs h howner
    have hsame : y = owner := Classical.byContradiction fun hne => not_moved_of_silent hsilent owner y (hmoved hne)
    rw [hsame, ← howner] at hy
    exact .inl ⟨happroved, hy⟩

theorem approval_step (hs : s.Coherent) (hunclaimed : s.garage.Unclaimed) (h : Step hash s operation reply s')
    (a : Asset) : ApprovalStep s s' a operation := by
  have hquiet (hsilent : operation.Silent) : s.garage.Lapses s'.garage a := lapses_of_silent hs hunclaimed hsilent h
  cases h with
  | @approveCar caller c account _ h =>
    obtain ⟨car, hcar, hright, rfl⟩ := CarRegistry.approve_eq_ok_iff.mp h
    have happroved := Approvals.approved_approve s.garage.cars.approvals c account
    by_cases ha : a = .car c
    · subst ha
      have howner : s.garage.carOwner? c = some car.owner := congrArg (Option.map Car.owner) hcar
      exact .set rfl rfl howner hright ((happroved c).trans (if_pos rfl)) howner
    · refine .lapses (fun _ he => ha (congrArg Prod.fst (Option.some.inj he)).symm) (.inl ⟨?_, ?_⟩)
      · cases a with
        | car d => exact (happroved d).trans (if_neg fun he => ha (congrArg Asset.car he.symm))
        | part q => rfl
      · cases a <;> rfl
  | @approvePart caller p account _ h =>
    obtain ⟨part, hpart, hright, rfl⟩ := PartRegistry.approve_eq_ok_iff.mp h
    have happroved := Approvals.approved_approve s.garage.parts.approvals p account
    by_cases ha : a = .part p
    · subst ha
      have howner : s.garage.partOwner? p = some part.owner := congrArg (Option.map Part.owner) hpart
      exact .set rfl rfl howner hright ((happroved p).trans (if_pos rfl)) howner
    · refine .lapses (fun _ he => ha (congrArg Prod.fst (Option.some.inj he)).symm) (.inl ⟨?_, ?_⟩)
      · cases a with
        | car d => rfl
        | part q => exact (happroved q).trans (if_neg fun he => ha (congrArg Asset.part he.symm))
      · cases a <;> rfl
  | @approveAll caller account approved =>
    have htoken {κ : Type} [Key κ] (t : Approvals κ) := Approvals.token_setOperator t caller account approved
    refine .lapses nofun (.inl ⟨?_, ?_⟩)
    · cases a with
      | car c => exact congrArg (·.get? c) (htoken s.garage.cars.approvals)
      | part p => exact congrArg (·.get? p) (htoken s.garage.parts.approvals)
    · cases a <;> rfl
  | transferPart _ h =>
    obtain ⟨part, -, -, -, rfl⟩ := PartRegistry.transferFrom_eq_ok_iff.mp h
    exact .lapses nofun (Garage.lapses_handed_part _ _ _ _ a)
  | transferCar _ h =>
    obtain ⟨car, -, -, rfl⟩ := CarRegistry.transferFrom_eq_ok_iff.mp h
    exact .lapses nofun (Garage.lapses_handed_car _ _ _ _ a)
  | buy _ _ _ h => exact .lapses nofun (Garage.lapses_handOver (Market.settleInPlace_ok_iff.mp h).1)
  | _ => exact .lapses nofun (hquiet trivial)

theorem unclaimed_step (hs : s.Coherent) (hunclaimed : s.garage.Unclaimed) (h : Step hash s operation reply s') :
    s'.garage.Unclaimed := by
  intro a hnone
  have hbefore : s.garage.holder? a = none := by
    cases howner : s.garage.holder? a with
    | none => rfl
    | some owner =>
      obtain ⟨y, hy, -⟩ := holder?_step hs h howner
      rw [hnone] at hy
      cases hy
  cases approval_step hs hunclaimed h a with
  | lapses _ hlapses =>
    rcases hlapses with ⟨happroved, -⟩ | happroved
    · exact happroved.trans (hunclaimed a hbefore)
    · exact happroved
  | set _ _ howner =>
    rw [hbefore] at howner
    cases howner

theorem unclaimed_reachable (h : Reachable hash s) : s.garage.Unclaimed := by
  refine invariant_reachable (P := fun s => s.garage.Unclaimed) (fun hstart => ?_) (fun hs hkept hstep => ?_) h
  · obtain ⟨-, -, rfl⟩ := genesis_eq_ok_iff.mp hstart
    intro a _
    cases a <;> rfl
  · exact unclaimed_step hs hkept hstep

/-- The tables of operators are changed by their owners' word alone. -/
theorem operatorTable_step (hs : s.Coherent) (h : Step hash s operation reply s')
    (hother : ∀ owner account approved, operation ≠ .approveAll owner account approved) :
    s'.garage.operatorTable a = s.garage.operatorTable a := by
  have hquiet (hsilent : operation.Silent) : s'.garage.operatorTable a = s.garage.operatorTable a := by
    obtain ⟨hcars, hparts⟩ := approvals_of_silent hsilent h
    cases a with
    | car c => exact congrArg Approvals.operators hcars
    | part p => exact congrArg Approvals.operators hparts
  cases h with
  | approveAll => exact absurd rfl (hother _ _ _)
  | approveCar h =>
    obtain ⟨_, -, -, rfl⟩ := CarRegistry.approve_eq_ok_iff.mp h
    cases a with
    | car c => exact Approvals.operators_approve _ _ _
    | part p => rfl
  | approvePart h =>
    obtain ⟨_, -, -, rfl⟩ := PartRegistry.approve_eq_ok_iff.mp h
    cases a with
    | car c => rfl
    | part p => exact Approvals.operators_approve _ _ _
  | transferPart _ h =>
    obtain ⟨_, -, -, -, rfl⟩ := PartRegistry.transferFrom_eq_ok_iff.mp h
    exact Garage.operatorTable_of_fixtures (Garage.fixtures_handed_part _ _ _ _)
  | transferCar _ h =>
    obtain ⟨_, -, -, rfl⟩ := CarRegistry.transferFrom_eq_ok_iff.mp h
    exact Garage.operatorTable_of_fixtures (Garage.fixtures_handed_car _ _ _ _)
  | buy hplan _ _ h =>
    obtain ⟨_, -, hdelivered, -⟩ := Market.delivered_of_settle hs.sound hplan h
    exact Garage.operatorTable_of_fixtures hdelivered.fixtures
  | _ => exact hquiet trivial

/-- Only its owner gives an owner another operator. -/
theorem isOperator_step (hs : s.Coherent) (h : Step hash s operation reply s')
    (hx : s'.garage.isOperator a owner x = true) :
    s.garage.isOperator a owner x = true ∨ operation = .approveAll owner x true := by
  by_cases hall : ∃ caller account approved, operation = .approveAll caller account approved
  · obtain ⟨caller, account, approved, rfl⟩ := hall
    cases h
    have hset : s.garage.isOperator a owner x = true ∨ (caller = owner ∧ account = x ∧ approved = true) := by
      cases a with
      | car c => exact Approvals.isOperator_of_setOperator hx
      | part p => exact Approvals.isOperator_of_setOperator hx
    rcases hset with hold | ⟨rfl, rfl, rfl⟩
    · exact .inl hold
    · exact .inr rfl
  · have htable : s'.garage.operatorTable a = s.garage.operatorTable a := by
      apply operatorTable_step hs h
      intro owner account approved he
      exact hall ⟨owner, account, approved, he⟩
    rw [Garage.isOperator_congr htable] at hx
    exact .inl hx

/-! ### Runs -/

/-- What was so after every operation since the first ones, and is so after the last one, too. -/
theorem forall_later_concat {Q : List Operation → Prop} {first : List Operation}
    (h : ∀ later, first <+: later → later <+: operations → Q later) (hlast : Q (operations ++ [last])) :
    ∀ later, first <+: later → later <+: operations ++ [last] → Q later := by
  intro later hfirst hlater
  rcases List.prefix_concat_iff.mp hlater with rfl | hlater
  · exact hlast
  · exact h later hfirst hlater

/-- What came about in a run came about at one operation, and was so ever since. -/
theorem exists_turn {P : Ledger → Prop} (hstart : ¬ P start) (h : P (start.run hash operations)) :
    ∃ done operation, done ++ [operation] <+: operations ∧ ¬ P (start.run hash done) ∧
      ∀ later, done ++ [operation] <+: later → later <+: operations → P (start.run hash later) := by
  induction operations using List.reverseRecOn with
  | nil => exact absurd h hstart
  | append_singleton rest last ih =>
    by_cases hrest : P (start.run hash rest)
    · obtain ⟨done, operation, hnext, hbefore, hsince⟩ := ih hrest
      refine ⟨done, operation, hnext.trans (List.prefix_append _ _), hbefore, ?_⟩
      exact forall_later_concat hsince h
    · refine ⟨rest, last, List.prefix_refl _, hrest, ?_⟩
      intro later hfirst hlater
      rwa [hlater.eq_of_length_le hfirst.length_le]

/-- After the operations `done` the owner of a token, or an operator of the owner, had the account
approved for it. The token has been the owner's since, and no other approval for it went through. -/
structure Granted (hash : Hasher) (start : Ledger) (operations done : List Operation) (operation : Operation)
    (a : Asset) (x owner : AccountId) : Prop where
  next : done ++ [operation] <+: operations
  sets : operation.approval? = some (a, some x)
  carried_out : ∃ reply, ((start.run hash done).execute hash operation).1 = .ok reply
  owned : (start.run hash done).garage.holder? a = some owner
  by_right : ∃ caller, operation.caller? = some caller ∧
    (caller = owner ∨ (start.run hash done).garage.isOperator a owner caller = true)
  owned_since : ∀ later, done ++ [operation] <+: later → later <+: operations →
    (start.run hash later).garage.holder? a = some owner
  last : ∀ later other account, done ++ [operation] <+: later → later ++ [other] <+: operations →
    other.approval? = some (a, account) → ∃ e, ((start.run hash later).execute hash other).1 = .error e

theorem Granted.extend (h : Granted hash start operations done operation a x owner)
    (hholder : (start.run hash (operations ++ [last])).garage.holder? a =
      (start.run hash operations).garage.holder? a)
    (hlast : ∀ account, last.approval? = some (a, account) →
      ∃ e, ((start.run hash operations).execute hash last).1 = .error e) :
    Granted hash start (operations ++ [last]) done operation a x owner where
  next := h.next.trans (List.prefix_append _ _)
  sets := h.sets
  carried_out := h.carried_out
  owned := h.owned
  by_right := h.by_right
  owned_since := by
    apply forall_later_concat h.owned_since
    exact hholder.trans (h.owned_since operations h.next (List.prefix_refl _))
  last later other account hlater hnext hother := by
    rcases List.prefix_concat_iff.mp hnext with heq | hnext
    · obtain ⟨rfl, hsame⟩ := List.append_inj' heq rfl
      cases hsame
      exact hlast account hother
    · exact h.last later other account hlater hnext hother

theorem exists_granted (hstart : genesis hash operator config = .ok start) (operations : List Operation)
    (h : (start.run hash operations).garage.approved? a = some x) :
    ∃ done operation owner, Granted hash start operations done operation a x owner := by
  have hs := coherent_genesis hstart
  -- The last operation set the approval, or it is from before and the last operation left it alone.
  induction operations using List.reverseRecOn with
  | nil =>
    obtain ⟨-, -, rfl⟩ := genesis_eq_ok_iff.mp hstart
    cases a <;> cases h
  | append_singleton rest last ih =>
    have hunclaimed : (start.run hash rest).garage.Unclaimed :=
      unclaimed_reachable ⟨operator, config, start, rest, hstart, rfl⟩
    rcases hrun : (start.run hash rest).execute hash last with ⟨e | reply, s'⟩
    · have hsame : start.run hash (rest ++ [last]) = start.run hash rest := by
        rw [run_concat, hrun]
        exact unchanged_of_error (coherent_run hs rest) hrun
      rw [hsame] at h
      obtain ⟨done, operation, owner, hgranted⟩ := ih h
      refine ⟨done, operation, owner, hgranted.extend (by rw [hsame]) ?_⟩
      intro account _
      exact ⟨e, congrArg Prod.fst hrun⟩
    · have hafter : start.run hash (rest ++ [last]) = s' := by rw [run_concat, hrun]
      rw [hafter] at h
      cases approval_step (coherent_run hs rest) hunclaimed (step_of_execute hrun) a with
      | lapses hother hlapses =>
        rcases hlapses with ⟨happroved, hholder⟩ | hnone
        · obtain ⟨done, operation, owner, hgranted⟩ := ih (happroved.symm.trans h)
          refine ⟨done, operation, owner, hgranted.extend (by rw [hafter, hholder]) ?_⟩
          intro account hsets
          exact absurd hsets (hother account)
        · rw [hnone] at h
          cases h
      | @set account caller owner hsets hcaller howner hright happroved hkept =>
        obtain rfl : account = some x := happroved.symm.trans h
        refine ⟨rest, last, owner, List.prefix_refl _, hsets, ⟨reply, congrArg Prod.fst hrun⟩, howner,
          ⟨caller, hcaller, hright⟩, ?_, ?_⟩
        · intro later hfirst hlater
          rw [hlater.eq_of_length_le hfirst.length_le, hafter]
          exact hkept
        · intro later other account hlater hnext
          have hlength := hnext.length_le
          have hlength' := hlater.length_le
          simp only [List.length_append, List.length_singleton] at hlength hlength'
          omega

/-- After the operations `done` the owner made the account an operator for tokens of this kind, and it has
been one since. -/
structure Appointed (hash : Hasher) (start : Ledger) (operations done : List Operation) (a : Asset)
    (x owner : AccountId) : Prop where
  next : done ++ [.approveAll owner x true] <+: operations
  since : ∀ later, done ++ [.approveAll owner x true] <+: later → later <+: operations →
    (start.run hash later).garage.isOperator a owner x = true

theorem exists_appointed (hstart : genesis hash operator config = .ok start) (operations : List Operation)
    (h : (start.run hash operations).garage.isOperator a owner x = true) :
    ∃ done, Appointed hash start operations done a x owner := by
  have hs := coherent_genesis hstart
  have hblank : ¬ start.garage.isOperator a owner x = true := by
    obtain ⟨-, -, rfl⟩ := genesis_eq_ok_iff.mp hstart
    cases a <;> exact Bool.false_ne_true
  obtain ⟨done, operation, hnext, hbefore, hsince⟩ :=
    exists_turn (P := fun s => s.garage.isOperator a owner x = true) hblank h
  have hafter := hsince _ (List.prefix_refl _) hnext
  rw [run_concat] at hafter
  rcases execute_cases (coherent_run hs done) operation with hsame | ⟨reply, hstep⟩
  · rw [hsame] at hafter
    exact absurd hafter hbefore
  · rcases isOperator_step (coherent_run hs done) hstep hafter with hold | rfl
    · exact absurd hold hbefore
    · exact ⟨done, hnext, hsince⟩

/-- An approval goes back to the owner of today or an operator of that owner, tokens that were never
minted have none, and nobody may move a token without the word of the one it belongs to now. -/
theorem authority_granted (hstart : genesis hash operator config = .ok start) (operations : List Operation) :
    (∀ a x, (start.run hash operations).garage.approved? a = some x →
      ∃ done operation owner, Granted hash start operations done operation a x owner) ∧
    (∀ a, (start.run hash operations).garage.holder? a = none →
      (start.run hash operations).garage.approved? a = none) ∧
    ∀ a x, (start.run hash operations).garage.Permits a x →
      ∃ owner, (start.run hash operations).garage.holder? a = some owner ∧
        (x = owner ∨ (∃ done operation, Granted hash start operations done operation a x owner) ∨
          ∃ done, Appointed hash start operations done a x owner) := by
  refine ⟨fun a x h => exists_granted hstart operations h, ?_, ?_⟩
  · exact unclaimed_reachable ⟨operator, config, start, operations, hstart, rfl⟩
  · intro a x hpermits
    obtain ⟨owner, howner, hmay⟩ := Garage.permits_iff.mp hpermits
    refine ⟨owner, howner, ?_⟩
    rcases hmay with hsame | happroved | hoperator
    · exact .inl hsame
    · obtain ⟨done, operation, granter, hgranted⟩ := exists_granted hstart operations happroved
      have hgranter := hgranted.owned_since operations hgranted.next (List.prefix_refl _)
      obtain rfl : granter = owner := Option.some.inj (hgranter.symm.trans howner)
      exact .inr (.inl ⟨done, operation, hgranted⟩)
    · exact .inr (.inr (exists_appointed hstart operations hoperator))

namespace Fair

/-- The buyer lets account 3 have the car. -/
def permit : Operation := .approveCar (account 2) ⟨1⟩ (some (account 3))

end Fair

theorem authority_granted_fair : genesis Fair.hasher (Fair.account 9) Fair.terms = .ok Fair.opening ∧
    (Fair.opening.run Fair.hasher (Fair.trade ++ [Fair.permit])).garage.Permits (.car ⟨1⟩) (Fair.account 3) ∧
    ∃ done operation, Granted Fair.hasher Fair.opening (Fair.trade ++ [Fair.permit]) done operation (.car ⟨1⟩)
      (Fair.account 3) (Fair.account 2) := by
  have hgenesis : genesis Fair.hasher (Fair.account 9) Fair.terms = .ok Fair.opening := rfl
  have happroved : (Fair.opening.run Fair.hasher (Fair.trade ++ [Fair.permit])).garage.approved? (.car ⟨1⟩) =
      some (Fair.account 3) := by decide +kernel
  have hholder : (Fair.opening.run Fair.hasher (Fair.trade ++ [Fair.permit])).garage.holder? (.car ⟨1⟩) =
      some (Fair.account 2) := by decide +kernel
  obtain ⟨hgranted, -, -⟩ := authority_granted hgenesis (Fair.trade ++ [Fair.permit])
  obtain ⟨done, operation, owner, h⟩ := hgranted _ _ happroved
  obtain rfl : owner = Fair.account 2 :=
    Option.some.inj ((h.owned_since _ h.next (List.prefix_refl _)).symm.trans hholder)
  exact ⟨hgenesis, Garage.permits_iff.mpr ⟨_, hholder, .inr (.inl happroved)⟩, done, operation, h⟩

end Ledger

end Paddock
