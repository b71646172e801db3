import Paddock.Proofs.Refitting

/-! Operations on the slots of two cars, with parts that have nothing to do with each other, can be carried out in
either order. -/
namespace Paddock

/-! ### Two changes side by side -/

namespace Change

variable {ε σ α β : Type} {R : σ → σ → Prop} {x : Change ε σ α} {f : α → Change ε σ β} {s t : σ}

/-- Two ends of a change: the same answer, and states that are related. -/
inductive Abreast (R : σ → σ → Prop) : EStateM.Result ε σ α → EStateM.Result ε σ α → Prop
  | ok {u v : σ} (a : α) (h : R u v) : Abreast R (.ok a u) (.ok a v)
  | error {u v : σ} (e : ε) (h : R u v) : Abreast R (.error e u) (.error e v)

theorem Abreast.bind (hx : Abreast R (x s) (x t))
    (hf : ∀ a s' t', x s = .ok a s' → R s' t' → Abreast R (f a s') (f a t')) :
    Abreast R ((x >>= f) s) ((x >>= f) t) := by
  simp only [Bind.bind, EStateM.bind]
  generalize hs : x s = first at hx
  generalize x t = second at hx
  cases hx with
  | ok a h => exact hf a _ _ hs h
  | error e h => exact .error e h

theorem abreast_check {look : σ → Except ε α} (hlook : look t = look s) (h : R s t) :
    Abreast R (check look s) (check look t) := by
  unfold check
  rw [hlook]
  cases look s with
  | ok a => exact .ok a h
  | error e => exact .error e h

theorem Abreast.result (h : Abreast R (x s) (x t)) :
    (x.result t).1 = (x.result s).1 ∧ R (x.result s).2 (x.result t).2 := by
  unfold Change.result
  generalize x s = first at h
  generalize x t = second at h
  cases h with
  | ok a h => exact ⟨rfl, h⟩
  | error e h => exact ⟨rfl, h⟩

end Change

namespace Garage

variable {g g' : Garage} {c d : CarId} {p : PartId} {ps qs : List PartId} {t : PartType} {car : Car} {part : Part}
  {mark : Option CarId} {content : Option PartId}

/-! ### One car and some parts, and all the others -/

/-- Two garages that have the same car and the same parts here. -/
structure SameAt (c : CarId) (ps : List PartId) (g g' : Garage) : Prop where
  car : g'.cars.cars.get? c = g.cars.cars.get? c
  part : ∀ p ∈ ps, g'.parts.parts.get? p = g.parts.parts.get? p

/-- Two garages that are the same elsewhere. The lists of owners may name other parts. -/
structure SameBut (c : CarId) (ps : List PartId) (g g' : Garage) : Prop where
  car : ∀ d, c ≠ d → g'.cars.cars.get? d = g.cars.cars.get? d
  part : ∀ q, q ∉ ps → g'.parts.parts.get? q = g.parts.parts.get? q
  cars : g'.cars = { g.cars with cars := g'.cars.cars }
  parts : g'.parts = { g.parts with parts := g'.parts.parts, owners := g'.parts.owners }

theorem SameBut.refl (c : CarId) (ps : List PartId) (g : Garage) : SameBut c ps g g :=
  ⟨fun _ _ => rfl, fun _ _ => rfl, rfl, rfl⟩

theorem SameBut.sameAt (hbut : SameBut c ps g g') (hcar : c ≠ d) (hparts : ∀ p ∈ ps, p ∉ qs) :
    SameAt d qs g g' where
  car := hbut.car d hcar
  part q hq := hbut.part q fun hp => hparts q hp hq

theorem SameBut.refitted (hbut : SameBut c ps g g') (hp : p ∈ ps) :
    SameBut c ps g (g'.refitted c car t p part mark content) where
  car d hd := (Table.get?_insert_ne _ _ hd).trans (hbut.car d hd)
  part q hq := by
    have hne : p ≠ q := fun he => hq (he ▸ hp)
    exact (Table.get?_insert_ne _ _ hne).trans (hbut.part q hq)
  cars := by
    have hrest := hbut.cars
    simp only [Garage.refitted, setSlot, CarRegistry.put]
    rw [hrest]
  parts := by
    have hrest := hbut.parts
    simp only [Garage.refitted, setSlot, PartRegistry.mark]
    rw [hrest]

theorem SameAt.marked (hat : SameAt c ps g g') (p : PartId) (part : Part) (mark : Option CarId) :
    SameAt c ps { g with parts := g.parts.mark p part mark } { g' with parts := g'.parts.mark p part mark } where
  car := hat.car
  part q hq := by
    rw [get?_mark, get?_mark, hat.part q hq]

theorem SameAt.markPart (hat : SameAt c ps g g') (hp : p ∈ ps) (mark : Option CarId) :
    Change.Abreast (SameAt c ps) (markPart p mark g) (markPart p mark g') := by
  have hsame := hat.part p hp
  simp only [Garage.markPart, inParts, Change.within, PartRegistry.setEquippedInPlace, Bind.bind, EStateM.bind,
    Change.check, PartRegistry.get, hsame]
  cases g.parts.parts.get? p with
  | none => exact .error _ hat
  | some part =>
    obtain ⟨id, owner, spec, equippedTo⟩ := part
    cases equippedTo with
    | none =>
      cases mark with
      | none => exact .error _ hat
      | some c => exact .ok () (hat.marked p _ (some c))
    | some d =>
      cases mark with
      | none => exact .ok () (hat.marked p _ none)
      | some c => exact .error _ hat

theorem SameAt.writeSlot (hat : SameAt c ps g g') (t : PartType) (content : Option PartId) :
    Change.Abreast (SameAt c ps) (writeSlot c t content g) (writeSlot c t content g') := by
  have hget : g'.cars.get c = g.cars.get c := by rw [CarRegistry.get, CarRegistry.get, hat.car]
  refine (Change.abreast_check hget hat).bind fun car _ _ _ hat => ?_
  refine .ok () ⟨?_, hat.part⟩
  exact (Table.get?_insert_self _ _ _).trans (Table.get?_insert_self _ _ _).symm

theorem SameAt.releaseInPlace (hat : SameAt c ps g g') (hheld : ∀ p, g.slotAt c t = some p → p ∈ ps) :
    Change.Abreast (SameAt c ps) (releaseInPlace c t g) (releaseInPlace c t g') := by
  have hget : g'.cars.get c = g.cars.get c := by rw [CarRegistry.get, CarRegistry.get, hat.car]
  refine (Change.abreast_check hget hat).bind fun car _ _ hlook hat => ?_
  obtain ⟨hcar, rfl⟩ := Change.check_ok_iff.mp hlook
  have hslot : g.slotAt c t = car.slots.get t := slotAt_of_get? (CarRegistry.get_eq_ok_iff.mp hcar)
  cases hcontent : car.slots.get t with
  | none => exact .ok none hat
  | some p =>
    have hp : p ∈ ps := hheld p (hslot.trans hcontent)
    refine (hat.markPart hp none).bind fun _ _ _ _ hat => ?_
    refine (hat.writeSlot t none).bind fun _ _ _ _ hat => ?_
    exact .ok (some p) hat

/-! ### The operations -/

end Garage

/-- What owners do to the slots of their cars. -/
inductive SlotOperation where
  | equip (caller : AccountId) (car : CarId) (part : PartId) (slot : Nat)
  | unequip (caller : AccountId) (car : CarId) (part : PartId)
  | replace (caller : AccountId) (car : CarId) (old new : PartId)

namespace SlotOperation

def car : SlotOperation → CarId
  | equip _ car _ _ | unequip _ car _ | replace _ car _ _ => car

def parts : SlotOperation → List PartId
  | equip _ _ part _ | unequip _ _ part => [part]
  | replace _ _ old new => [old, new]

def change : SlotOperation → Change CarError Garage Unit
  | equip caller car part slot => Garage.equipInPlace caller car part slot
  | unequip caller car part => Garage.unequipInPlace caller car part
  | replace caller car old new => Garage.replaceInPlace caller car old new

theorem clean (o : SlotOperation) (g : Garage) : o.change.Clean g := by
  cases o with
  | equip caller car part slot => exact Garage.clean_equip caller car part slot g
  | unequip caller car part => exact Garage.clean_unequip caller car part g
  | replace caller car old new => exact Garage.clean_replace caller car old new g

end SlotOperation

namespace Garage

variable {g g' : Garage} {caller : AccountId} {c : CarId} {p old new : PartId} {ps : List PartId} {n : Nat}

/-- What a slot operation answers, and the garage after it. -/
def refit (g : Garage) (o : SlotOperation) : Except CarError Unit × Garage := o.change.result g

theorem SameAt.checkEquip (hat : SameAt c ps g g') (hp : p ∈ ps) :
    g'.checkEquip caller c p n = g.checkEquip caller c p n := by
  simp only [Garage.checkEquip, CarRegistry.ensureOwner, CarRegistry.get, PartRegistry.ensureOwner, PartRegistry.get,
    hat.car, hat.part p hp]

theorem SameAt.slotHolding (hat : SameAt c ps g g') :
    g'.slotHolding caller c p = g.slotHolding caller c p := by
  simp only [Garage.slotHolding, CarRegistry.ensureOwner, CarRegistry.get, hat.car]

theorem SameAt.checkReplace (hat : SameAt c ps g g') (hold : old ∈ ps) (hnew : new ∈ ps) :
    g'.checkReplace caller c old new = g.checkReplace caller c old new := by
  simp only [Garage.checkReplace, hat.slotHolding, PartRegistry.kindOf, PartRegistry.ensureOwner, PartRegistry.get,
    hat.part old hold, hat.part new hnew]

/-- An operation looks at its car and its parts only. -/
theorem SameAt.change {o : SlotOperation} (hat : SameAt o.car o.parts g g') :
    Change.Abreast (SameAt o.car o.parts) (o.change g) (o.change g') := by
  cases o with
  | equip caller c p n =>
    have hp : p ∈ [p] := List.mem_singleton_self p
    refine (Change.abreast_check (hat.checkEquip hp) hat).bind fun kind _ _ _ hat => ?_
    refine (hat.markPart hp _).bind fun _ _ _ _ hat => ?_
    exact hat.writeSlot _ _
  | unequip caller c p =>
    refine (Change.abreast_check hat.slotHolding hat).bind fun t _ _ hlook hat => ?_
    obtain ⟨hholds, rfl⟩ := Change.check_ok_iff.mp hlook
    obtain ⟨car, hcar, -, hslot⟩ := slotHolding_eq_ok_iff.mp hholds
    refine (hat.releaseInPlace fun q hq => ?_).bind fun _ _ _ _ hat => .ok () hat
    have hsame := (slotAt_of_slotOf? hcar hslot).symm.trans hq
    rw [← Option.some.inj hsame]
    exact List.mem_singleton_self p
  | replace caller c old new =>
    have hold : old ∈ [old, new] := List.mem_cons_self
    have hnew : new ∈ [old, new] := List.mem_cons_of_mem _ (List.mem_singleton_self new)
    refine (Change.abreast_check (hat.checkReplace hold hnew) hat).bind fun t _ _ _ hat => ?_
    refine (hat.markPart hold _).bind fun _ _ _ _ hat => ?_
    refine (hat.markPart hnew _).bind fun _ _ _ _ hat => ?_
    exact hat.writeSlot _ _

theorem SameAt.refit {o : SlotOperation} (hat : SameAt o.car o.parts g g') :
    (g'.refit o).1 = (g.refit o).1 ∧ SameAt o.car o.parts (g.refit o).2 (g'.refit o).2 :=
  hat.change.result

/-- One garage made from another by marking some parts and writing the slots of one car. -/
inductive Refits (c : CarId) (ps : List PartId) (g : Garage) : Garage → Prop
  | refl : Refits c ps g g
  | next {g' : Garage} {car : Car} {p : PartId} {part : Part} (h : Refits c ps g g')
      (hcar : g'.cars.cars.get? c = some car) (hpart : g'.parts.parts.get? p = some part) (hp : p ∈ ps)
      (t : PartType) (mark : Option CarId) (content : Option PartId) :
      Refits c ps g (g'.refitted c car t p part mark content)

theorem refits_refit (g : Garage) (o : SlotOperation) : Refits o.car o.parts g (g.refit o).2 := by
  rcases (o.clean g).result_cases with hsame | ⟨_, hdone⟩
  · rw [refit, hsame]
    exact .refl
  · cases o with
    | equip caller c p n =>
      obtain ⟨t, car, part, -, hcar, -, hpart, -, -, -, -, heq⟩ := equipInPlace_ok_iff.mp hdone
      rw [refit, ← heq]
      exact Refits.refl.next hcar hpart (List.mem_singleton_self p) t (some c) (some p)
    | unequip caller c p =>
      obtain ⟨t, car, part, hcar, -, -, hpart, -, heq⟩ := unequipInPlace_ok_iff.mp hdone
      rw [refit, ← heq]
      exact Refits.refl.next hcar hpart (List.mem_singleton_self p) t none none
    | replace caller c old new =>
      obtain ⟨t, car, oldPart, newPart, hcar, -, -, hold, hmark, hnew, -, hloose, -, heq⟩ :=
        replaceInPlace_ok_iff.mp hdone
      have hne := ne_of_marked hold hmark hnew hloose
      have hnew' : (g.detached c car t old oldPart).parts.parts.get? new = some newPart :=
        (get?_mark _ _ _ _ _).trans ((if_neg hne).trans hnew)
      have hfirst : Refits c [old, new] g (g.detached c car t old oldPart) :=
        Refits.refl.next hcar hold List.mem_cons_self t none none
      rw [refit, ← heq, replaced_eq]
      exact hfirst.next (Table.get?_insert_self _ _ _) hnew' (List.mem_cons_of_mem _ (List.mem_singleton_self new)) t
        (some c) (some new)

theorem Refits.sameBut (h : Refits c ps g g') : SameBut c ps g g' := by
  induction h with
  | refl => exact .refl c ps g
  | next _ _ _ hp t mark content ih => exact ih.refitted hp

theorem Refits.ordered (h : Refits c ps g g') (hg : g.Ordered) : g'.Ordered := by
  induction h with
  | refl => exact hg
  | next _ hcar hpart _ t mark content ih => exact ih.refitted hcar hpart t mark content

/-! ### Either order -/

/-- Two that write in different places. Each leaves the places of the other as they are, and writes in its own
what it would write if it came first; then it does not matter who does. -/
theorem eq_of_disjoint_writes {κ α : Type} {A B : κ → Prop} {f fa fb fab fba : κ → α}
    (hdisjoint : ∀ k, A k → ¬ B k)
    (ha : ∀ k, ¬ A k → fa k = f k) (hb : ∀ k, ¬ B k → fb k = f k)
    (hab : ∀ k, ¬ B k → fab k = fa k) (hba : ∀ k, ¬ A k → fba k = fb k)
    (hsameA : ∀ k, A k → fba k = fa k) (hsameB : ∀ k, B k → fab k = fb k) (k : κ) : fba k = fab k := by
  by_cases hA : A k
  · exact (hsameA k hA).trans (hab k (hdisjoint k hA)).symm
  · by_cases hB : B k
    · exact (hba k hA).trans (hsameB k hB).symm
    · calc fba k = fb k := hba k hA
        _ = f k := hb k hB
        _ = fa k := (ha k hA).symm
        _ = fab k := (hab k hB).symm

theorem Ordered.refit_comm (hg : g.Ordered) {a b : SlotOperation} (hcar : a.car ≠ b.car)
    (hparts : ∀ p ∈ a.parts, p ∉ b.parts) :
    ((g.refit b).2.refit a).1 = (g.refit a).1 ∧ ((g.refit a).2.refit b).1 = (g.refit b).1 ∧
      ((g.refit a).2.refit b).2.Alike ((g.refit b).2.refit a).2 := by
  have hparts' : ∀ p ∈ b.parts, p ∉ a.parts := fun p hb ha => hparts p ha hb
  have first := refits_refit g a
  have second := refits_refit g b
  have after := refits_refit (g.refit a).2 b
  have after' := refits_refit (g.refit b).2 a
  obtain ⟨hanswer, hsame⟩ := (second.sameBut.sameAt hcar.symm hparts').refit
  obtain ⟨hanswer', hsame'⟩ := (first.sameBut.sameAt hcar hparts).refit
  refine ⟨hanswer, hanswer', ?_⟩
  have hcars : ((g.refit b).2.refit a).2.cars.cars = ((g.refit a).2.refit b).2.cars.cars := by
    refine Table.ext_get? (eq_of_disjoint_writes (A := (a.car = ·)) (B := (b.car = ·)) ?_ first.sameBut.car
      second.sameBut.car after.sameBut.car after'.sameBut.car ?_ ?_)
    · rintro _ rfl hb
      exact hcar hb.symm
    · rintro _ rfl
      exact hsame.car
    · rintro _ rfl
      exact hsame'.car
  have htable : ((g.refit b).2.refit a).2.parts.parts = ((g.refit a).2.refit b).2.parts.parts :=
    Table.ext_get? (eq_of_disjoint_writes (A := (· ∈ a.parts)) (B := (· ∈ b.parts)) hparts first.sameBut.part
      second.sameBut.part after.sameBut.part after'.sameBut.part hsame.part hsame'.part)
  have hordered := after.ordered (first.ordered hg)
  have hordered' := after'.ordered (second.ordered hg)
  refine alike_of_records hordered.parts.indexed hordered'.parts.indexed ?_ ?_
  · rw [after'.sameBut.parts, after.sameBut.parts, second.sameBut.parts, first.sameBut.parts, htable]
  · rw [after'.sameBut.cars, after.sameBut.cars, second.sameBut.cars, first.sameBut.cars, hcars]

end Garage

namespace Ledger

variable {hash : Hasher} {s : Ledger}

namespace Fair

/-- Account 1 has a second car. -/
def fleet : Ledger := (stocked.execute hasher (.mintCar (account 1) order 0)).2

theorem reachable_fleet : Reachable hasher fleet := reachable_execute reachable_stocked _

/-- The loose engine goes on the first car. -/
def exchange : SlotOperation := .replace (account 1) ⟨1⟩ ⟨1⟩ ⟨4⟩

/-- The wheels of the second car come off. -/
def removal : SlotOperation := .unequip (account 1) ⟨2⟩ ⟨7⟩

end Fair

/-- Slot operations on two cars, which name no part in common, are answered alike in either order, be it with an
error, and lead to the same garage but for the order of the owners' lists. -/
theorem slot_operations_commute (hs : Reachable hash s) (a b : SlotOperation) (hcar : a.car ≠ b.car)
    (hparts : ∀ p ∈ a.parts, p ∉ b.parts) :
    ((s.garage.refit b).2.refit a).1 = (s.garage.refit a).1 ∧
      ((s.garage.refit a).2.refit b).1 = (s.garage.refit b).1 ∧
      ((s.garage.refit a).2.refit b).2.Alike ((s.garage.refit b).2.refit a).2 :=
  (consecutive_reachable hs).1.refit_comm hcar hparts

/-- Both go through, for one owner. -/
theorem slot_operations_commute_fair : Reachable Fair.hasher Fair.fleet ∧ Fair.exchange.car ≠ Fair.removal.car ∧
    (∀ p ∈ Fair.exchange.parts, p ∉ Fair.removal.parts) ∧
    (Fair.fleet.garage.refit Fair.exchange).1 = .ok () ∧ (Fair.fleet.garage.refit Fair.removal).1 = .ok () ∧
    ((Fair.fleet.garage.refit Fair.removal).2.refit Fair.exchange).1 = .ok () ∧
    ((Fair.fleet.garage.refit Fair.exchange).2.refit Fair.removal).1 = .ok () ∧
    ((Fair.fleet.garage.refit Fair.exchange).2.refit Fair.removal).2.Alike
      ((Fair.fleet.garage.refit Fair.removal).2.refit Fair.exchange).2 := by
  have hcar : Fair.exchange.car ≠ Fair.removal.car := by decide
  have hparts : ∀ p ∈ Fair.exchange.parts, p ∉ Fair.removal.parts := by decide
  obtain ⟨⟨⟩, hexchange⟩ : ∃ done, (Fair.fleet.garage.refit Fair.exchange).1 = .ok done :=
    exists_of_isOk (by decide +kernel)
  obtain ⟨⟨⟩, hremoval⟩ : ∃ done, (Fair.fleet.garage.refit Fair.removal).1 = .ok done :=
    exists_of_isOk (by decide +kernel)
  obtain ⟨hfirst, hsecond, halike⟩ :=
    slot_operations_commute Fair.reachable_fleet Fair.exchange Fair.removal hcar hparts
  exact ⟨Fair.reachable_fleet, hcar, hparts, hexchange, hremoval, hfirst.trans hexchange, hsecond.trans hremoval,
    halike⟩

end Ledger

end Paddock
