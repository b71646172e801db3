import Paddock.Proofs.Runs
import Paddock.Proofs.Upkeep

/-! The supply of parts and cars: both count up from one without a gap, and nothing is ever taken back. -/
namespace Paddock

/-! ### Numbers given out one after the other -/

/-- The records `f`, with `n` the last number, have become the records `f'` with the last number `n'`:
there is one for every number in between, and no other has changed. -/
structure Grows {α : Type} (f : UInt64 → Option α) (n : UInt64) (f' : UInt64 → Option α) (n' : UInt64) :
    Prop where
  le : n.toNat ≤ n'.toNat
  new : ∀ k, n.toNat < k.toNat → k.toNat ≤ n'.toNat → (f' k).isSome
  old : ∀ k, k.toNat ≤ n.toNat ∨ n'.toNat < k.toNat → f' k = f k

namespace Grows

variable {α : Type} {f f' f'' : UInt64 → Option α} {n n' n'' k : UInt64} {a : α}

theorem of_eq (hf : ∀ k, f' k = f k) (hn : n' = n) : Grows f n f' n' where
  le := hn ▸ Nat.le_refl _
  new k hk hk' := by
    subst hn
    omega
  old k _ := hf k

theorem next (hroom : n.toNat + 1 < UInt64.size) (hf : ∀ k, f' k = if n + 1 = k then some a else f k) :
    Grows f n f' (n + 1) := by
  have hnext := toNat_next hroom
  refine ⟨by omega, fun k hk hk' => ?_, fun k hk => ?_⟩
  · have hlast : n + 1 = k := UInt64.toNat_inj.mp (by omega)
    rw [hf, if_pos hlast]
    rfl
  · have hother : n + 1 ≠ k := by
      rintro rfl
      omega
    rw [hf, if_neg hother]

theorem trans (h : Grows f n f' n') (h' : Grows f' n' f'' n'') : Grows f n f'' n'' := by
  have hle := h.le
  have hle' := h'.le
  refine ⟨by omega, fun k hk hk' => ?_, fun k hk => ?_⟩
  · by_cases hbefore : k.toNat ≤ n'.toNat
    · rw [h'.old k (.inl hbefore)]
      exact h.new k hk hbefore
    · exact h'.new k (by omega) hk'
  · rw [h'.old k (by omega), h.old k (by omega)]

/-- Where no number after the last one was in use, nothing is lost. -/
theorem kept (h : Grows f n f' n') (hfresh : ∀ k, n.toNat < k.toNat → f k = none) (hk : f k = some a) :
    f' k = some a := by
  have hused : k.toNat ≤ n.toNat := by
    apply Nat.le_of_not_lt
    intro hlt
    rw [hfresh k hlt] at hk
    cases hk
  rw [h.old k (.inl hused), hk]

theorem isSome_iff (h : Grows f n f' n') (hf : ∀ k, (f k).isSome ↔ 1 ≤ k.toNat ∧ k.toNat ≤ n.toNat)
    (k : UInt64) : (f' k).isSome ↔ 1 ≤ k.toNat ∧ k.toNat ≤ n'.toNat := by
  have hle := h.le
  by_cases hk : k.toNat ≤ n.toNat ∨ n'.toNat < k.toNat
  · rw [h.old k hk, hf]
    omega
  · have hnew := h.new k (by omega) (by omega)
    constructor
    · intro _
      omega
    · intro _
      exact hnew

end Grows

/-! ### What a garage has -/

namespace Garage

variable {g g' : Garage} {c : CarId} {p q : PartId} {t : PartType} {car : Car} {part : Part}

/-- What a part was minted from. -/
def spec? (g : Garage) (p : PartId) : Option PartSpec := (g.parts.parts.get? p).map Part.spec

def image? (g : Garage) (c : CarId) : Option String := (g.cars.cars.get? c).map Car.image

/-- Every part and every car is still there, and still what it was minted as. -/
structure Retains (g g' : Garage) : Prop where
  parts : ∀ p spec, g.spec? p = some spec → g'.spec? p = some spec
  cars : ∀ c image, g.image? c = some image → g'.image? c = some image

theorem Retains.refl (g : Garage) : g.Retains g := ⟨fun _ _ h => h, fun _ _ h => h⟩

theorem Retains.trans {g'' : Garage} (h : g.Retains g') (h' : g'.Retains g'') : g.Retains g'' where
  parts p spec hp := h'.parts p spec (h.parts p spec hp)
  cars c image hc := h'.cars c image (h.cars c image hc)

/-- Nothing has changed but owners, slots and conditions, or new parts and cars have come. -/
structure Extends (g g' : Garage) : Prop where
  parts : Grows (fun k => g.spec? ⟨k⟩) g.parts.lastId (fun k => g'.spec? ⟨k⟩) g'.parts.lastId
  cars : Grows (fun k => g.image? ⟨k⟩) g.cars.lastId (fun k => g'.image? ⟨k⟩) g'.cars.lastId

theorem extends_of_eq (hparts : ∀ p, g'.spec? p = g.spec? p) (hcars : ∀ c, g'.image? c = g.image? c)
    (hpart : g'.parts.lastId = g.parts.lastId) (hcar : g'.cars.lastId = g.cars.lastId) : g.Extends g' where
  parts := .of_eq (fun _ => hparts _) hpart
  cars := .of_eq (fun _ => hcars _) hcar

theorem Extends.refl (g : Garage) : g.Extends g := extends_of_eq (fun _ => rfl) (fun _ => rfl) rfl rfl

theorem Extends.trans {g'' : Garage} (h : g.Extends g') (h' : g'.Extends g'') : g.Extends g'' :=
  ⟨h.parts.trans h'.parts, h.cars.trans h'.cars⟩

theorem Extends.retains (hg : g.Sound) (h : g.Extends g') : g.Retains g' where
  parts p _ hp := h.parts.kept (k := p.number) (fun k hk => by rw [spec?, hg.parts_fresh ⟨k⟩ hk]; rfl) hp
  cars c _ hc := h.cars.kept (k := c.number) (fun k hk => by rw [image?, hg.cars_fresh ⟨k⟩ hk]; rfl) hc

theorem spec?_mark (hpart : g.parts.parts.get? p = some part) (mark : Option CarId) (q : PartId) :
    ((g.parts.mark p part mark).parts.get? q).map Part.spec = g.spec? q := by
  rw [get?_mark, spec?]
  split
  · next hq => rw [← hq, hpart]; rfl
  · rfl

theorem spec?_handed (hpart : g.parts.parts.get? p = some part) (target : AccountId) (q : PartId) :
    ((g.parts.handed p part target).parts.get? q).map Part.spec = g.spec? q := by
  rw [get?_handed_part hpart, spec?]
  split
  · next hq => rw [← hq, hpart]; rfl
  · rfl

theorem image?_handed (hcar : g.cars.cars.get? c = some car) (target : AccountId) (d : CarId) :
    ((g.cars.handed c car target).cars.get? d).map Car.image = g.image? d :=
  CarRegistry.map_handed Car.image hcar target rfl d

theorem extends_attached (hcar : g.cars.cars.get? c = some car) (hpart : g.parts.parts.get? p = some part) :
    g.Extends (g.attached c car t p part) :=
  extends_of_eq (spec?_mark hpart _) (CarRegistry.map_put Car.image hcar _ rfl) rfl rfl

theorem extends_detached (hcar : g.cars.cars.get? c = some car) (hpart : g.parts.parts.get? p = some part) :
    g.Extends (g.detached c car t p part) :=
  extends_of_eq (spec?_mark hpart _) (CarRegistry.map_put Car.image hcar _ rfl) rfl rfl

theorem extends_replaced {old new : PartId} {oldPart newPart : Part} (hcar : g.cars.cars.get? c = some car)
    (hold : g.parts.parts.get? old = some oldPart) (hnew : g.parts.parts.get? new = some newPart)
    (hne : old ≠ new) : g.Extends (g.replaced c car t old oldPart new newPart) := by
  rw [replaced_eq]
  refine (extends_detached hcar hold).trans (extends_attached (Table.get?_insert_self _ _ _) ?_)
  exact (get?_mark _ _ _ _ _).trans ((if_neg hne).trans hnew)

theorem grows_addPart {r : PartRegistry} (hroom : r.lastId.toNat + 1 < UInt64.size) (owner : AccountId)
    (spec : PartSpec) (mark : Option CarId) :
    Grows (fun k => (r.parts.get? ⟨k⟩).map Part.spec) r.lastId
      (fun k => ((r.addPart owner spec mark).parts.get? ⟨k⟩).map Part.spec) (r.addPart owner spec mark).lastId := by
  refine .next (a := spec) hroom fun k => ?_
  rw [get?_addPart]
  by_cases hk : r.lastId + 1 = k
  · subst hk
    rw [if_pos rfl, if_pos rfl]
    rfl
  · rw [if_neg fun h => hk (congrArg PartId.number h), if_neg hk]

theorem extends_minted (hroom : g.parts.lastId.toNat + 3 < UInt64.size) (hcar : g.cars.nextId = .ok c)
    (owner : AccountId) (image : String) (specs : PerType PartSpec) :
    g.Extends (g.minted owner image c specs) := by
  obtain ⟨hroomCar, rfl⟩ := CarRegistry.nextId_eq_ok_iff.mp hcar
  have hfirst : (g.parts.lastId + 1).toNat = g.parts.lastId.toNat + 1 := toNat_next (by omega)
  have hsecond : (g.parts.lastId + 1 + 1).toNat = (g.parts.lastId + 1).toNat + 1 := toNat_next (by omega)
  constructor
  · refine ((grows_addPart (by omega) owner specs.engine _).trans
      (grows_addPart ?_ owner specs.transmission _)).trans (grows_addPart ?_ owner specs.wheels _)
    · change (g.parts.lastId + 1).toNat + 1 < _
      omega
    · change (g.parts.lastId + 1 + 1).toNat + 1 < _
      omega
  · refine .next (a := image) hroomCar fun k => ?_
    simp only [image?, minted, CarRegistry.addCar, Table.get?_insert]
    by_cases hk : g.cars.lastId + 1 = k
    · subst hk
      rw [if_pos rfl, if_pos rfl]
      rfl
    · rw [if_neg fun h => hk (congrArg CarId.number h), if_neg hk]

theorem extends_addLoose (hroom : g.parts.lastId.toNat + 1 < UInt64.size) (owner : AccountId)
    (spec : PartSpec) : g.Extends { g with parts := g.parts.addPart owner spec none } :=
  ⟨grows_addPart hroom owner spec none, .of_eq (fun _ => rfl) rfl⟩

theorem Delivered.extends {plan : PurchasePlan} (hcar : g.cars.cars.get? plan.car = some car)
    (h : g.Delivered plan car g') : g.Extends g' := by
  refine extends_of_eq (fun p => ?_) (fun d => ?_) (congrArg Fixtures.lastPart h.fixtures)
    (congrArg Fixtures.lastCar h.fixtures)
  · rw [spec?, h.parts, Option.map_map]
    rfl
  · by_cases hd : plan.car = d
    · subst hd
      rw [image?, h.car_eq, image?, hcar]
      rfl
    · rw [image?, h.others d hd, image?]

/-- The parts are numbered from one to the last one, and so are the cars. All are filed under their own
numbers. -/
structure Consecutive (g : Garage) : Prop where
  parts : ∀ p, (g.parts.parts.get? p).isSome ↔ 1 ≤ p.number.toNat ∧ p.number.toNat ≤ g.parts.lastId.toNat
  cars : ∀ c, (g.cars.cars.get? c).isSome ↔ 1 ≤ c.number.toNat ∧ c.number.toNat ≤ g.cars.lastId.toNat
  parts_filed : ∀ p part, g.parts.parts.get? p = some part → part.id = p
  cars_filed : ∀ c car, g.cars.cars.get? c = some car → car.id = c

theorem consecutive_new (maxStat maxCondition : UInt8) :
    (Garage.mk (.new maxStat) (.new maxCondition)).Consecutive where
  parts p := by
    constructor
    · intro h
      cases h
    · rintro ⟨hfirst, hlast⟩
      exact absurd (Nat.le_trans hfirst hlast) (Nat.not_succ_le_zero 0)
  cars c := by
    constructor
    · intro h
      cases h
    · rintro ⟨hfirst, hlast⟩
      exact absurd (Nat.le_trans hfirst hlast) (Nat.not_succ_le_zero 0)
  parts_filed _ _ h := by cases h
  cars_filed _ _ h := by cases h

theorem Consecutive.extend (hg : g.Consecutive) (h : g.Extends g') (hordered : g'.Ordered) :
    g'.Consecutive where
  parts p := by
    have hspec := h.parts.isSome_iff (fun k => by rw [spec?, Option.isSome_map]; exact hg.parts ⟨k⟩) p.number
    rwa [spec?, Option.isSome_map] at hspec
  cars c := by
    have himage := h.cars.isSome_iff (fun k => by rw [image?, Option.isSome_map]; exact hg.cars ⟨k⟩) c.number
    rwa [image?, Option.isSome_map] at himage
  parts_filed := hordered.parts.numbered.filed
  cars_filed := hordered.cars.filed

end Garage

namespace Ledger

variable {hash : Hasher} {s s' start : Ledger} {operation : Operation} {reply : Reply}
  {before : List Operation} {caller owner : AccountId} {spec : PartSpec} {request : MintRequest}
  {payment : Amount} {config : LedgerConfig} {operator : AccountId}

theorem extends_step (hg : s.garage.Sound) (h : Step hash s operation reply s') :
    s.garage.Extends s'.garage := by
  cases h with
  | mintCar _ _ h =>
    obtain ⟨arranged, -, hcar, -, hroom, rfl⟩ := Garage.mintInPlace_ok_iff.mp h
    exact Garage.extends_minted hroom hcar _ _ _
  | mintPart _ h =>
    obtain ⟨-, hroom, -, rfl⟩ := PartRegistry.mint_eq_ok_iff.mp h
    exact Garage.extends_addLoose hroom _ _
  | equip h =>
    obtain ⟨t, car, part, -, hcar, -, hpart, -, -, -, -, rfl⟩ := Garage.equipInPlace_ok_iff.mp h
    exact Garage.extends_attached hcar hpart
  | unequip h =>
    obtain ⟨t, car, part, hcar, -, -, hpart, -, rfl⟩ := Garage.unequipInPlace_ok_iff.mp h
    exact Garage.extends_detached hcar hpart
  | replace h =>
    obtain ⟨t, car, oldPart, newPart, hcar, -, -, hold, hmark, hnew, -, hloose, -, rfl⟩ :=
      Garage.replaceInPlace_ok_iff.mp h
    exact Garage.extends_replaced hcar hold hnew (Garage.ne_of_marked hold hmark hnew hloose)
  | transferPart _ h =>
    obtain ⟨part, hpart, -, -, rfl⟩ := PartRegistry.transferFrom_eq_ok_iff.mp h
    exact Garage.extends_of_eq (Garage.spec?_handed hpart _) (fun _ => rfl)
      (Garage.lastId_handed_part ..) rfl
  | transferCar _ h =>
    obtain ⟨car, hcar, -, rfl⟩ := CarRegistry.transferFrom_eq_ok_iff.mp h
    exact Garage.extends_of_eq (fun _ => rfl) (Garage.image?_handed hcar _) rfl
      (Garage.lastId_handed_car ..)
  | approvePart h =>
    obtain ⟨part, -, -, rfl⟩ := PartRegistry.approve_eq_ok_iff.mp h
    exact Garage.extends_of_eq (fun _ => rfl) (fun _ => rfl) rfl rfl
  | approveCar h =>
    obtain ⟨car, -, -, rfl⟩ := CarRegistry.approve_eq_ok_iff.mp h
    exact Garage.extends_of_eq (fun _ => rfl) (fun _ => rfl) rfl rfl
  | approveAll => exact Garage.extends_of_eq (fun _ => rfl) (fun _ => rfl) rfl rfl
  | buy hplan _ _ h =>
    obtain ⟨car, hcar, hdelivered, -⟩ := Market.delivered_of_settle hg hplan h
    obtain ⟨_, _, _, -, -, -, -, -, -, -, -, rfl⟩ := Market.plan_eq_ok_iff.mp hplan
    exact hdelivered.extends hcar
  | repair _ _ h =>
    obtain ⟨car, condition, hcar, rfl⟩ := Workshop.exists_of_repair h
    exact Garage.extends_of_eq (fun _ => rfl) (CarRegistry.map_put Car.image hcar _ rfl) rfl rfl
  | wear h =>
    obtain ⟨car, condition, hcar, rfl⟩ := Workshop.exists_of_wear h
    exact Garage.extends_of_eq (fun _ => rfl) (CarRegistry.map_put Car.image hcar _ rfl) rfl rfl
  | @setAuthority _ role _ _ => cases role <;> exact .refl _
  | _ => exact .refl _

theorem retains_step (hg : s.garage.Sound) (h : Step hash s operation reply s') :
    s.garage.Retains s'.garage :=
  (extends_step hg h).retains hg

theorem retains_run (hs : s.Coherent) (operations : List Operation) :
    s.garage.Retains (s.run hash operations).garage := by
  induction operations generalizing s with
  | nil => exact .refl _
  | cons operation rest ih =>
    have hfirst : s.garage.Retains (s.execute hash operation).2.garage := by
      rcases @execute_cases hash s hs operation with h | ⟨reply, h⟩
      · rw [h]
        exact .refl _
      · exact retains_step hs.sound h
    exact hfirst.trans (ih (coherent_execute hs operation))

theorem consecutive_reachable (h : Reachable hash s) : s.garage.Ordered ∧ s.garage.Consecutive := by
  refine invariant_reachable (P := fun s => s.garage.Ordered ∧ s.garage.Consecutive) (fun hstart => ?_)
    (fun hs hkept hstep => ?_) h
  · obtain ⟨-, -, rfl⟩ := genesis_eq_ok_iff.mp hstart
    exact ⟨⟨PartRegistry.ordered_new _, CarRegistry.ordered_new _⟩, Garage.consecutive_new _ _⟩
  · have hordered := ordered_step hkept.1 hstep
    exact ⟨hordered, hkept.2.extend (extends_step hs.sound hstep) hordered⟩

/-! ### Numbers that were never in use -/

/-- No ledger on the way had this part. -/
def PartUnused (hash : Hasher) (start : Ledger) (before : List Operation) (p : PartId) : Prop :=
  ∀ earlier, earlier <+: before → (start.run hash earlier).garage.parts.parts.get? p = none

/-- No ledger on the way had this car. -/
def CarUnused (hash : Hasher) (start : Ledger) (before : List Operation) (c : CarId) : Prop :=
  ∀ earlier, earlier <+: before → (start.run hash earlier).garage.cars.cars.get? c = none

theorem retains_later (hstart : start.Coherent) {earlier later : List Operation} (h : earlier <+: later) :
    (start.run hash earlier).garage.Retains (start.run hash later).garage := by
  obtain ⟨rest, rfl⟩ := h
  have hrest := @retains_run hash (start.run hash earlier) (coherent_run hstart earlier) rest
  simpa only [run, List.foldl_append] using hrest

theorem partUnused_of_lt (hstart : start.Coherent) {p : PartId}
    (hp : (start.run hash before).garage.parts.lastId.toNat < p.number.toNat) :
    PartUnused hash start before p := by
  intro earlier hearlier
  cases hpart : (start.run hash earlier).garage.parts.parts.get? p with
  | none => rfl
  | some part =>
    have hkept := (retains_later hstart hearlier).parts p part.spec (by rw [Garage.spec?, hpart]; rfl)
    rw [Garage.spec?, (coherent_run hstart before).sound.parts_fresh p hp] at hkept
    cases hkept

theorem carUnused_of_lt (hstart : start.Coherent) {c : CarId}
    (hc : (start.run hash before).garage.cars.lastId.toNat < c.number.toNat) :
    CarUnused hash start before c := by
  intro earlier hearlier
  cases hcar : (start.run hash earlier).garage.cars.cars.get? c with
  | none => rfl
  | some car =>
    have hkept := (retains_later hstart hearlier).cars c car.image (by rw [Garage.image?, hcar]; rfl)
    rw [Garage.image?, (coherent_run hstart before).sound.cars_fresh c hc] at hkept
    cases hkept

/-- One part under the next number, and no car. -/
structure PartMinted (hash : Hasher) (start : Ledger) (before : List Operation) (owner : AccountId)
    (spec : PartSpec) (p : PartId) (s' : Ledger) : Prop where
  number : p.number.toNat = (start.run hash before).garage.parts.lastId.toNat + 1
  unused : PartUnused hash start before p
  part : s'.garage.parts.parts.get? p = some ⟨p, owner, spec, none⟩
  lastPart : s'.garage.parts.lastId.toNat = (start.run hash before).garage.parts.lastId.toNat + 1
  cars : s'.garage.cars = (start.run hash before).garage.cars

/-- One car under the next number, and three parts under the next three, each in its slot. -/
structure CarMinted (hash : Hasher) (start : Ledger) (before : List Operation) (owner : AccountId)
    (request : MintRequest) (c : CarId) (s' : Ledger) : Prop where
  number : c.number.toNat = (start.run hash before).garage.cars.lastId.toNat + 1
  unused : CarUnused hash start before c
  lastCar : s'.garage.cars.lastId.toNat = (start.run hash before).garage.cars.lastId.toNat + 1
  lastPart : s'.garage.parts.lastId.toNat = (start.run hash before).garage.parts.lastId.toNat + 3
  car : ∃ slots arranged, Garage.arrange request.parts = .ok arranged ∧
    s'.garage.cars.cars.get? c =
      some ⟨c, owner, request.image, (start.run hash before).garage.cars.maxCondition, slots⟩ ∧
    ∀ t, ∃ p, slots.get t = some p ∧
      p.number.toNat = (start.run hash before).garage.parts.lastId.toNat + t.slot + 1 ∧
      PartUnused hash start before p ∧
      s'.garage.parts.parts.get? p = some ⟨p, owner, arranged.get t, some c⟩

theorem partMinted_of_execute (hstart : start.Coherent)
    (h : (start.run hash before).execute hash (.mintPart caller owner spec) = (.ok reply, s')) :
    ∃ p, reply = .part p ∧ PartMinted hash start before owner spec p s' := by
  cases step_of_execute h with
  | @mintPart _ _ _ p _ _ hmint =>
    obtain ⟨-, hroom, rfl, rfl⟩ := PartRegistry.mint_eq_ok_iff.mp hmint
    have hnext := toNat_next hroom
    refine ⟨_, rfl, hnext, partUnused_of_lt hstart ?_, ?_, hnext, rfl⟩
    · change _ < (_ + 1 : UInt64).toNat
      omega
    · exact (Garage.get?_addPart ..).trans (if_pos rfl)

theorem carMinted_of_execute (hstart : start.Coherent)
    (h : (start.run hash before).execute hash (.mintCar caller request payment) = (.ok reply, s')) :
    ∃ c, reply = .car c ∧ CarMinted hash start before caller request c s' := by
  cases step_of_execute h with
  | @mintCar _ _ _ _ c _ _ _ hmint =>
    obtain ⟨arranged, hvalid, hcar, -, hroom, rfl⟩ := Garage.mintInPlace_ok_iff.mp hmint
    obtain ⟨hone, -, -⟩ := Garage.validateMint_eq_ok_iff.mp hvalid
    obtain ⟨hroomCar, rfl⟩ := CarRegistry.nextId_eq_ok_iff.mp hcar
    have hnext : ((start.run hash before).garage.cars.lastId + 1).toNat =
        (start.run hash before).garage.cars.lastId.toNat + 1 := toNat_next hroomCar
    refine ⟨_, rfl, hnext, carUnused_of_lt hstart ?_, hnext, Garage.number_nextIds hroom .wheels, _, _,
      Garage.arrange_eq_ok_iff.mpr hone, Table.get?_insert_self _ _ _, fun t => ?_⟩
    · change _ < (_ + 1 : UInt64).toNat
      omega
    · have hnumber := Garage.number_nextIds hroom t
      refine ⟨(Garage.nextIds (start.run hash before).garage.parts).get t, by cases t <;> rfl, hnumber,
        partUnused_of_lt hstart (by omega), ?_⟩
      exact Garage.get?_minted_new hroom caller request.image arranged t

/-- Of parts and cars there are always those from one to the last one. Whatever is minted has a number
that was never in use, a car has three parts with numbers in a row, and nothing that was minted is ever
removed or becomes another thing. -/
theorem supply_append_only (hconfig : config.validate = .ok ()) (hash : Hasher) (operator : AccountId) :
    ∃ start, genesis hash operator config = .ok start ∧ ∀ before,
      (start.run hash before).garage.Consecutive ∧
      (∀ caller owner spec reply s',
        (start.run hash before).execute hash (.mintPart caller owner spec) = (.ok reply, s') →
          ∃ p, reply = .part p ∧ PartMinted hash start before owner spec p s') ∧
      (∀ caller request payment reply s',
        (start.run hash before).execute hash (.mintCar caller request payment) = (.ok reply, s') →
          ∃ c, reply = .car c ∧ CarMinted hash start before caller request c s') ∧
      ∀ after, (start.run hash before).garage.Retains (start.run hash (before ++ after)).garage := by
  obtain ⟨start, hstart⟩ := exists_genesis hconfig hash operator
  have hcoherent := coherent_genesis hstart
  refine ⟨start, hstart, fun before => ⟨?_, ?_, ?_, fun after => ?_⟩⟩
  · exact (consecutive_reachable ⟨operator, config, start, before, hstart, rfl⟩).2
  · exact fun _ _ _ _ _ h => partMinted_of_execute hcoherent h
  · exact fun _ _ _ _ _ h => carMinted_of_execute hcoherent h
  · exact retains_later hcoherent (List.prefix_append before after)

namespace Fair

def order : MintRequest := ⟨"", PartType.all.map Fair.spec⟩

end Fair

/-- The first car there is. -/
theorem supply_append_only_fair : Fair.terms.validate = .ok () ∧
    genesis Fair.hasher (Fair.account 9) Fair.terms = .ok Fair.opening ∧
    ∃ c s', CarMinted Fair.hasher Fair.opening [] (Fair.account 1) Fair.order c s' := by
  have hterms : Fair.terms.validate = .ok () := rfl
  obtain ⟨start, hstart, hall⟩ := supply_append_only hterms Fair.hasher (Fair.account 9)
  obtain rfl : Fair.opening = start := Except.ok.inj hstart
  refine ⟨hterms, rfl, ?_⟩
  rcases h : Fair.opening.execute Fair.hasher (.mintCar (Fair.account 1) Fair.order 0) with ⟨e | reply, s'⟩
  · have hok : ((Fair.opening.execute Fair.hasher
        (.mintCar (Fair.account 1) Fair.order 0)).1.isOk) = true := by decide +kernel
    rw [h] at hok
    cases hok
  · obtain ⟨c, -, hminted⟩ := (hall []).2.2.1 _ _ _ _ _ h
    exact ⟨c, s', hminted⟩

end Ledger

end Paddock
