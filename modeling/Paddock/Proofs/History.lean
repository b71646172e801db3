import Mathlib.Data.List.Induction
import Paddock.Proofs.Listings

/-! What the journal of a run says about it: which operation wrote an event, and what offer is behind a sale. -/
namespace Paddock.Ledger

variable {hash : Hasher} {start s s' : Ledger} {operations done listed sold : List Operation}
  {operation : Operation} {reply : Reply} {event : Event} {before after between : List Event} {c : CarId}
  {l : Listing} {operator : AccountId} {config : LedgerConfig}

theorem run_concat (start : Ledger) (done : List Operation) (operation : Operation) :
    start.run hash (done ++ [operation]) = ((start.run hash done).execute hash operation).2 := by
  simp only [run, List.foldl_append, List.foldl_cons, List.foldl_nil]

/-- A new ledger has nothing on its books, and nothing to tell. -/
theorem blank_of_genesis (h : genesis hash operator config = .ok start) :
    start.journal.events = [] ∧ ∀ c, start.market.isListed c = false := by
  obtain ⟨-, -, rfl⟩ := genesis_eq_ok_iff.mp h
  exact ⟨rfl, fun _ => rfl⟩

/-! ### Events and the operations that wrote them -/

/-- The operation that comes after those `done` wrote the event. -/
structure Wrote (hash : Hasher) (start : Ledger) (operations done : List Operation)
    (operation : Operation) (event : Event) : Prop where
  next : done ++ [operation] <+: operations
  events_eq : (start.run hash (done ++ [operation])).journal.events =
    (start.run hash done).journal.events ++ [event]

theorem Wrote.extend (h : Wrote hash start operations done operation event) (last : Operation) :
    Wrote hash start (operations ++ [last]) done operation event :=
  ⟨h.next.trans (List.prefix_append _ _), h.events_eq⟩

theorem wrote_last (h : ((start.run hash done).execute hash operation).2.journal =
    (start.run hash done).journal.append hash event) :
    Wrote hash start (done ++ [operation]) done operation event := by
  refine ⟨List.prefix_refl _, ?_⟩
  rw [run_concat, h, Journal.events_append]

/-- What writes an event is a step. -/
theorem Wrote.offer_step (hs : start.Coherent) (h : Wrote hash start operations done operation event)
    (c : CarId) :
    OfferStep (start.run hash done) (start.run hash (done ++ [operation])) c operation event := by
  have hevents := h.events_eq
  rw [run_concat] at hevents ⊢
  rcases execute_cases (coherent_run hs done) operation with hsame | ⟨reply, hstep⟩
  · rw [hsame] at hevents
    simp at hevents
  · obtain ⟨other, hjournal, hoffer⟩ := Ledger.offer_step hstep
    rw [hjournal, Journal.events_append] at hevents
    obtain rfl : other = event := by simpa using hevents
    exact hoffer c

theorem exists_wrote (hs : start.Coherent) (hblank : start.journal.events = [])
    (h : (start.run hash operations).journal.events = before ++ event :: after) :
    ∃ done operation, Wrote hash start operations done operation event ∧
      (start.run hash done).journal.events = before := by
  induction operations using List.reverseRecOn generalizing after with
  | nil =>
    rw [show start.run hash [] = start from rfl, hblank] at h
    simp at h
  | append_singleton rest last ih =>
    rw [run_concat] at h
    rcases execute_cases (coherent_run hs rest) last with hsame | ⟨reply, hstep⟩
    · rw [hsame] at h
      obtain ⟨done, operation, hwrote, hbefore⟩ := ih h
      exact ⟨done, operation, hwrote.extend last, hbefore⟩
    · obtain ⟨written, hjournal⟩ := journal_step hstep
      rw [hjournal, Journal.events_append] at h
      -- The event in question is the one just written, or was there already.
      rcases List.eq_nil_or_concat after with rfl | ⟨after, other, rfl⟩
      · obtain ⟨hbefore, hevent⟩ := List.append_inj' h rfl
        cases hevent
        exact ⟨rest, last, wrote_last hjournal, hbefore⟩
      · rw [List.concat_eq_append, ← List.cons_append, ← List.append_assoc] at h
        obtain ⟨done, operation, hwrote, hbefore⟩ := ih (List.append_inj' h rfl).1
        exact ⟨done, operation, hwrote.extend last, hbefore⟩

/-! ### Offers and when they were made -/

/-- An offer was made after the operations `listed`. Since then, nothing that was written down is about
an offer of its car. -/
structure Standing (hash : Hasher) (start : Ledger) (operations : List Operation) (c : CarId) (l : Listing)
    (listed : List Operation) (between : List Event) : Prop where
  made : Wrote hash start operations listed (.list l.seller c l.price l.included)
    (.carListed c l.seller l.price l.included)
  since : (start.run hash operations).journal.events =
    (start.run hash listed).journal.events ++ .carListed c l.seller l.price l.included :: between
  undisturbed : ∀ event ∈ between, event.tradedCar? ≠ some c
  parts_eq : ∀ t, l.parts.get t =
    if l.included.get t then (start.run hash listed).garage.slotAt c t else none

theorem exists_standing (hstart : genesis hash operator config = .ok start) (operations : List Operation)
    (hl : (start.run hash operations).market.listing? c = some l) (hactive : l.state = .active) :
    ∃ listed between, Standing hash start operations c l listed between := by
  have hs := coherent_genesis hstart
  induction operations using List.reverseRecOn with
  | nil => exact absurd hactive (Market.state_ne_active ((blank_of_genesis hstart).2 c) hl)
  | append_singleton rest last ih =>
    rw [run_concat] at hl
    rcases execute_cases (coherent_run hs rest) last with hsame | ⟨reply, hstep⟩
    · rw [hsame] at hl
      obtain ⟨listed, between, h⟩ := ih hl
      refine ⟨listed, between, h.made.extend last, ?_, h.undisturbed, h.parts_eq⟩
      rw [run_concat, hsame]
      exact h.since
    · obtain ⟨event, hjournal, hoffer⟩ := offer_step hstep
      cases hoffer c with
      | kept hevent hsame =>
        obtain ⟨listed, between, h⟩ := ih (hsame.symm.trans hl)
        refine ⟨listed, between ++ [event], h.made.extend last, ?_, ?_, h.parts_eq⟩
        · rw [run_concat, hjournal, Journal.events_append, h.since, List.append_assoc, List.cons_append]
        · intro other hother
          rcases List.mem_append.mp hother with hother | hother
          · exact h.undisturbed other hother
          · rwa [List.mem_singleton.mp hother]
      | opened hoperation hevent _ hl' hparts =>
        cases hl.symm.trans hl'
        subst hoperation hevent
        refine ⟨rest, [], wrote_last hjournal, ?_, nofun, hparts⟩
        rw [run_concat, hjournal, Journal.events_append]
      | sold _ _ _ hended => exact absurd hactive (Market.state_ne_active hended hl)
      | withdrawn _ hended => exact absurd hactive (Market.state_ne_active hended hl)

/-- Behind every sale stands one offer, made by the seller at that price and never touched since. What
was sold with the car sat in the selected slots when the offer was made, and still did at the sale. -/
theorem sale_backed_by_offer (hstart : genesis hash operator config = .ok start)
    (operations : List Operation) {seller buyer : AccountId} {price fee : Amount} {parts : List PartId}
    (h : (start.run hash operations).journal.events =
      before ++ .carSold c seller buyer price fee parts :: after) :
    ∃ listed sold payment included between,
      Wrote hash start sold listed (.list seller c price included) (.carListed c seller price included) ∧
      Wrote hash start operations sold (.buy buyer c payment)
        (.carSold c seller buyer price fee parts) ∧
      (start.run hash sold).journal.events = before ∧
      before = (start.run hash listed).journal.events ++ .carListed c seller price included :: between ∧
      (∀ event ∈ between, event.tradedCar? ≠ some c) ∧
      (∀ t, included.get t = true → ∃ p, (start.run hash listed).garage.slotAt c t = some p ∧
        (start.run hash sold).garage.slotAt c t = some p) ∧
      parts = PartType.all.filterMap fun t =>
        if included.get t then (start.run hash listed).garage.slotAt c t else none := by
  have hs := coherent_genesis hstart
  obtain ⟨sold, operation, hwrote, hbefore⟩ := exists_wrote hs (blank_of_genesis hstart).1 h
  cases hwrote.offer_step hs c with
  | kept hevent => exact absurd rfl hevent
  | opened _ hevent => cases hevent
  | withdrawn hevent =>
    rcases hevent with hevent | ⟨_, _, hevent⟩ <;> cases hevent
  | @sold plan payment hoperation hevent hplan _ =>
    obtain ⟨l, car, _, hl, hactive, -, hcar, -, -, hready, -, hplanned⟩ := Market.plan_eq_ok_iff.mp hplan
    obtain ⟨listed, between, hstanding⟩ := exists_standing hstart sold hl hactive
    obtain ⟨-, rfl, rfl, rfl, rfl, rfl⟩ := Event.carSold.inj hevent
    rw [← hplanned] at hwrote hoperation ⊢
    subst hoperation
    refine ⟨listed, sold, payment, l.included, between, hstanding.made, hwrote, hbefore,
      hbefore.symm.trans hstanding.since, hstanding.undisturbed, fun t ht => ?_, ?_⟩
    · have hheld := hstanding.parts_eq t
      have hsome := ((coherent_run hs sold).backed c l hl).bundle t
      rw [ht] at hsome
      obtain ⟨p, hp⟩ := Option.isSome_iff_exists.mp hsome
      rw [if_pos ht, hp] at hheld
      refine ⟨p, hheld.symm, ?_⟩
      rw [Garage.slotAt_of_get? hcar]
      exact (hready (t, p) (Listing.mem_bundled.mpr hp)).1
    · change l.bundled.map Prod.snd = _
      rw [Listing.bundledParts_eq]
      exact congrArg (PartType.all.filterMap ·) (funext hstanding.parts_eq)

namespace Fair

/-- What is told of the sale: the parts that were offered went with the car. -/
def tradeEvent : Event := .carSold ⟨1⟩ (account 1) (account 2) 400 10 [⟨1⟩, ⟨2⟩]

end Fair

theorem sale_backed_by_offer_fair : genesis Fair.hasher (Fair.account 9) Fair.terms = .ok Fair.opening ∧
    (Fair.opening.run Fair.hasher Fair.trade).journal.events = Fair.opened.journal.events ++ [Fair.tradeEvent] ∧
    ∃ listed sold included,
      Wrote Fair.hasher Fair.opening sold listed (.list (Fair.account 1) ⟨1⟩ 400 included)
        (.carListed ⟨1⟩ (Fair.account 1) 400 included) ∧
      [⟨1⟩, ⟨2⟩] = PartType.all.filterMap fun t =>
        if included.get t then (Fair.opening.run Fair.hasher listed).garage.slotAt ⟨1⟩ t else none := by
  have hgenesis : genesis Fair.hasher (Fair.account 9) Fair.terms = .ok Fair.opening := rfl
  have hevents : (Fair.opening.run Fair.hasher Fair.trade).journal.events =
      Fair.opened.journal.events ++ [Fair.tradeEvent] := by decide +kernel
  obtain ⟨listed, sold, _, included, _, hlisted, -, -, -, -, -, hparts⟩ :=
    sale_backed_by_offer hgenesis Fair.trade hevents
  exact ⟨hgenesis, hevents, listed, sold, included, hlisted, hparts⟩

end Paddock.Ledger
