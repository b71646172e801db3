import Paddock.Proofs.Journal
import Paddock.Proofs.Purchase

/-! How offers come and go. A step opens the offer of a car, ends it, or leaves it exactly as it is. -/
namespace Paddock

/-- The car whose offer an event opens or ends. -/
def Event.tradedCar? : Event → Option CarId
  | .carListed car .. => some car
  | .listingCancelled car => some car
  | .carTransferred car .. => some car
  | .carSold car .. => some car
  | _ => none

namespace Market

variable {m m' : Market} {g : Garage} {c d : CarId} {t : PartType} {l : Listing} {car : Car}
  {caller buyer account : AccountId} {price payment : Amount} {included : PerType Bool} {asset : Asset}

theorem isListed_iff : m.isListed c = true ↔ ∃ l, m.listing? c = some l ∧ l.state = .active := by
  unfold isListed
  cases m.listing? c <;> simp [Listing.isActive]

theorem isListed_eq_false_of_listing (hl : m.listing? c = some l) (hstate : l.state ≠ .active) :
    m.isListed c = false := by
  rw [← Bool.not_eq_true, isListed_iff]
  rintro ⟨l', hl', hactive⟩
  cases hl.symm.trans hl'
  exact hstate hactive

theorem state_ne_active (h : m.isListed c = false) (hl : m.listing? c = some l) : l.state ≠ .active := by
  intro hactive
  rw [isListed_iff.mpr ⟨l, hl, hactive⟩] at h
  cases h

theorem listing?_insert (m : Market) (c : CarId) (l : Listing) (d : CarId) :
    ({ m with listings := m.listings.insert c l } : Market).listing? d =
      if c = d then some l else m.listing? d :=
  Table.get?_insert _ _ _ _

theorem listing?_markSettled (plan : PurchasePlan) (hl : m.listing? plan.car = some l) (d : CarId) :
    (m.markSettled plan).listing? d =
      if plan.car = d then some { l with state := .settled plan.buyer } else m.listing? d := by
  rw [markSettled_eq hl]
  exact listing?_insert _ _ _ _

theorem listing?_invalidate_ne (m : Market) (h : c ≠ d) : (m.invalidate c).listing? d = m.listing? d := by
  unfold invalidate
  split
  · split
    · exact (listing?_insert _ _ _ _).trans (if_neg h)
    · rfl
  · rfl

theorem isListed_invalidate (m : Market) (c : CarId) : (m.invalidate c).isListed c = false := by
  unfold invalidate
  split
  · next l hl =>
    split
    · exact isListed_eq_false_of_listing ((listing?_insert _ _ _ _).trans (if_pos rfl)) nofun
    · next hstate => exact isListed_eq_false_of_listing hl (by simpa [Listing.isActive] using hstate)
  · next hl => simp [isListed, hl]

/-- A part is bundled where it sits. -/
theorem bundlePart_eq_slotAt {held : Option PartId} (hcar : g.cars.cars.get? c = some car)
    (h : bundlePart g caller c car included t = .ok held) :
    held = if included.get t then g.slotAt c t else none := by
  obtain ⟨hsome, hslot⟩ := bundlePart_eq_ok h
  rw [← hsome, Garage.slotAt_of_get? hcar]
  cases held with
  | none => rfl
  | some p => exact (hslot p rfl).1.symm

/-! ### What a plan does not fail with -/

theorem checkBundled_ne_notOwner {x : PartType × PartId}
    (howned : car.slots.get x.1 = some x.2 → g.partOwner? x.2 = some l.seller) :
    m.checkBundled g l c car x ≠ .error (.notOwner asset account) := by
  obtain ⟨t, p⟩ := x
  unfold checkBundled
  dsimp only at howned ⊢
  cases hslot : car.slots.get t with
  | none => exact throw_ne_error (by simp)
  | some current =>
    simp only [throw_bind]
    refine guard_ne_error (fun _ => by simp) fun hsame => ?_
    obtain rfl := Decidable.not_not.mp hsame
    refine bind_ne_error (mapError_ne_error fun _ => by simp) fun owner howner => ?_
    obtain ⟨part, hpart, rfl⟩ := PartRegistry.ownerOf_eq_ok_iff.mp (partsLift_eq_ok_iff.mp howner)
    have hseller : part.owner = l.seller := by
      have := howned hslot
      rwa [Garage.partOwner?, hpart, Option.map_some, Option.some.injEq] at this
    refine guard_ne_error (fun h => absurd hseller h) fun _ => ?_
    refine bind_ne_error (mapError_ne_error fun _ => by simp) fun _ _ => ?_
    split
    · exact pure_ne_error
    · exact throw_ne_error (by simp)

/-- The seller of an active offer owns the car, and each bundled part that is still where it was. -/
theorem plan_ne_notOwner (hm : m.Backed g) (buyer : AccountId) (c : CarId) (payment : Amount) :
    m.plan g buyer c payment ≠ .error (.notOwner asset account) := by
  unfold Market.plan
  cases hl : m.listing? c with
  | none => exact throw_ne_error (by simp)
  | some l =>
    simp only [throw_bind]
    refine guard_ne_error (fun _ => by simp) fun hactive => guard_ne_error (fun _ => by simp) fun _ => ?_
    have hactive : l.state = .active := by simpa [Listing.isActive] using hactive
    refine bind_ne_error (mapError_ne_error fun _ => by simp) fun car hcar => ?_
    have hcar := CarRegistry.get_eq_ok_iff.mp (carsLift_eq_ok_iff.mp hcar)
    obtain ⟨hseller, howned⟩ := (hm c l hl).owned hactive car hcar
    refine guard_ne_error (fun h => absurd hseller h) fun _ => ?_
    refine bind_ne_error (mapError_ne_error fun _ => by simp) fun _ _ => guard_ne_error (fun _ => by simp) fun _ => ?_
    refine bind_ne_error (mapM_ne_error fun x hx => ?_) fun _ _ => bind_ne_error ?_ fun _ _ => pure_ne_error
    · exact checkBundled_ne_notOwner (howned x.1 x.2 (Listing.mem_bundled.mp hx))
    · unfold feeFor
      split <;> simp

end Market

namespace Ledger

variable {hash : Hasher} {s s' : Ledger} {c : CarId} {l : Listing} {operation : Operation} {reply : Reply}
  {event : Event}

/-- What a step that is told as `event` does to the offer of a car. -/
inductive OfferStep (s s' : Ledger) (c : CarId) (operation : Operation) (event : Event) : Prop
  | kept (hevent : event.tradedCar? ≠ some c) (hsame : s'.market.listing? c = s.market.listing? c)
  | opened {l : Listing} (hoperation : operation = .list l.seller c l.price l.included)
      (hevent : event = .carListed c l.seller l.price l.included) (hfree : s.market.isListed c = false)
      (hl : s'.market.listing? c = some l)
      (hparts : ∀ t, l.parts.get t = if l.included.get t then s.garage.slotAt c t else none)
  | sold {plan : PurchasePlan} {payment : Amount} (hoperation : operation = .buy plan.buyer c payment)
      (hevent : event = saleEvent plan)
      (hplan : s.market.plan s.garage plan.buyer c payment = .ok plan)
      (hended : s'.market.isListed c = false)
  | withdrawn (hevent : event = .listingCancelled c ∨ ∃ source target, event = .carTransferred c source target)
      (hended : s'.market.isListed c = false)

theorem offer_step (h : Step hash s operation reply s') :
    ∃ event, s'.journal = s.journal.append hash event ∧ ∀ c, OfferStep s s' c operation event := by
  cases h with
  | @list caller car price included _ h =>
    obtain ⟨-, found, parts, hcar, -, hfree, hparts, rfl⟩ := Market.list_eq_ok_iff.mp h
    refine ⟨_, rfl, fun c => ?_⟩
    have hlisting := Market.listing?_insert s.market car ⟨car, caller, price, included, parts, .active⟩ c
    by_cases hc : car = c
    · subst hc
      refine .opened (l := ⟨car, caller, price, included, parts, .active⟩) rfl rfl hfree ?_ fun t => ?_
      · exact hlisting.trans (if_pos rfl)
      · exact Market.bundlePart_eq_slotAt hcar (hparts t)
    · exact .kept (fun h => hc (Option.some.inj h)) (hlisting.trans (if_neg hc))
  | @cancel _ car _ h =>
    obtain ⟨l, hl, -, -, rfl⟩ := Market.cancel_eq_ok_iff.mp h
    refine ⟨_, rfl, fun c => ?_⟩
    have hlisting := Market.listing?_insert s.market car { l with state := .cancelled } c
    by_cases hc : car = c
    · subst hc
      refine .withdrawn (.inl rfl) ?_
      exact Market.isListed_eq_false_of_listing (hlisting.trans (if_pos rfl)) nofun
    · exact .kept (fun h => hc (Option.some.inj h)) (hlisting.trans (if_neg hc))
  | @transferCar _ car _ _ _ _ h =>
    refine ⟨_, rfl, fun c => ?_⟩
    by_cases hc : car = c
    · subst hc
      exact .withdrawn (.inr ⟨_, _, rfl⟩) (Market.isListed_invalidate _ _)
    · exact .kept (fun h => hc (Option.some.inj h)) (Market.listing?_invalidate_ne _ hc)
  | @buy buyer car payment plan _ _ _ hplan _ _ h =>
    refine ⟨_, rfl, fun c => ?_⟩
    obtain ⟨-, rfl⟩ := Market.settleInPlace_ok_iff.mp h
    obtain ⟨l, found, fee, hl, -, -, -, -, -, -, -, rfl⟩ := Market.plan_eq_ok_iff.mp hplan
    have hlisting := Market.listing?_markSettled (Market.planFor l found car buyer payment fee) hl c
    by_cases hc : car = c
    · subst hc
      refine .sold rfl rfl hplan ?_
      exact Market.isListed_eq_false_of_listing (hlisting.trans (if_pos rfl)) nofun
    · exact .kept (fun h => hc (Option.some.inj h)) (hlisting.trans (if_neg hc))
  | setFee _ h =>
    obtain ⟨-, rfl⟩ := Market.setFee_eq_ok_iff.mp h
    exact ⟨_, rfl, fun _ => .kept nofun rfl⟩
  | @setAuthority _ role _ _ => cases role <;> exact ⟨_, rfl, fun _ => .kept nofun rfl⟩
  | _ => exact ⟨_, rfl, fun _ => .kept nofun rfl⟩

/-- An offer that an operation leaves active is the offer from before. -/
theorem listing_execute (hs : s.Coherent) (hl : s.market.listing? c = some l) (hactive : l.state = .active)
    (h : (s.execute hash operation).2.market.isListed c = true) :
    (s.execute hash operation).2.market.listing? c = some l := by
  rcases execute_cases hs operation with hsame | ⟨reply, hstep⟩
  · rwa [hsame]
  · obtain ⟨event, -, hoffer⟩ := offer_step hstep
    cases hoffer c with
    | kept _ hsame => exact hsame.trans hl
    | opened _ _ hfree => exact absurd hactive (Market.state_ne_active hfree hl)
    | sold _ _ _ hended => rw [h] at hended; cases hended
    | withdrawn _ hended => rw [h] at hended; cases hended

theorem listing_run (hs : s.Coherent) {operations : List Operation} (hl : s.market.listing? c = some l)
    (hactive : l.state = .active)
    (h : ∀ done, done <+: operations → (s.run hash done).market.isListed c = true) :
    (s.run hash operations).market.listing? c = some l := by
  induction operations generalizing s with
  | nil => exact hl
  | cons operation rest ih =>
    have hfirst : (s.execute hash operation).2.market.isListed c = true :=
      h [operation] (List.prefix_append [operation] rest)
    refine ih (coherent_execute hs operation) (listing_execute hs hl hactive hfirst) fun done hdone => ?_
    exact h (operation :: done) (List.cons_prefix_cons.mpr ⟨rfl, hdone⟩)

/-- Every offer on the books is backed, so no plan finds that a seller is not the owner, and as long as
an offer is active it stays what it is. -/
theorem listing_book (hs : Reachable hash s) :
    (∀ c l, s.market.listing? c = some l → l.Backed c s.garage) ∧
      (∀ buyer c payment asset account,
        s.market.plan s.garage buyer c payment ≠ .error (.notOwner asset account)) ∧
      ∀ c l operations, s.market.listing? c = some l → l.state = .active →
        (∀ done, done <+: operations → (s.run hash done).market.isListed c = true) →
          (s.run hash operations).market.listing? c = some l := by
  have hcoherent := coherent_reachable hs
  refine ⟨fun c l hl => hcoherent.backed c l hl, fun buyer c payment asset account => ?_, ?_⟩
  · exact Market.plan_ne_notOwner hcoherent.backed buyer c payment
  · exact fun c l operations hl hactive h => listing_run hcoherent hl hactive h

theorem listing_book_fair : Reachable Fair.hasher Fair.opened ∧
    Fair.opened.market.listing? ⟨1⟩ = some Fair.offer ∧ Fair.offer.Backed ⟨1⟩ Fair.opened.garage :=
  have hoffer : Fair.opened.market.listing? ⟨1⟩ = some Fair.offer := by decide +kernel
  ⟨Fair.reachable_opened, hoffer, (listing_book Fair.reachable_opened).1 ⟨1⟩ Fair.offer hoffer⟩

end Ledger

end Paddock
