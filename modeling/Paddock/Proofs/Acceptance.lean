import Paddock.Ledger.Snapshot
import Paddock.Proofs.Audit
import Paddock.Proofs.Journal
import Paddock.Proofs.Supply

/-! Ledgers that are taken as snapshots, and what operations make of them. -/
namespace Paddock

namespace Ledger

variable {hash : Hasher} {s s' : Ledger} {operation : Operation} {reply : Reply}

/-! ### Snapshots -/

/-- The ledger is what every operation keeps it, whatever led to it. -/
structure InOrder (hash : Hasher) (s : Ledger) : Prop where
  sound : s.garage.Sound
  ordered : s.garage.Ordered
  conserved : s.bank.Conserved
  journal : (s.journal.validate hash).isValid = true

theorem inOrder_step (hs : s.InOrder hash) (h : Step hash s operation reply s') : s'.InOrder hash where
  sound := sound_step hs.sound h
  ordered := ordered_step hs.ordered h
  conserved := conserved_step hs.conserved h
  journal := by
    obtain ⟨event, hjournal⟩ := journal_step h
    rw [hjournal]
    exact Journal.isValid_append hs.journal event

theorem inOrder_reachable (h : Reachable hash s) : s.InOrder hash := by
  refine invariant_reachable (fun hstart => ?_) (fun _ => inOrder_step) h
  have hcoherent := coherent_genesis hstart
  obtain ⟨-, -, rfl⟩ := genesis_eq_ok_iff.mp hstart
  exact ⟨hcoherent.sound, ⟨PartRegistry.ordered_new _, CarRegistry.ordered_new _⟩, hcoherent.conserved, Journal.isValid_empty hash⟩

theorem snapshotFault?_eq_none_iff : s.snapshotFault? hash = none ↔
    (s.journal.validate hash).isValid = true ∧ s.audit.discrepancies = [] := by
  simp only [snapshotFault?]
  split <;> simp_all

theorem ofSnapshot_eq_ok_iff {t : Ledger} : ofSnapshot hash s = .ok t ↔
    s = t ∧ (s.journal.validate hash).isValid = true ∧ s.audit.discrepancies = [] := by
  rw [← snapshotFault?_eq_none_iff, ofSnapshot]
  cases s.snapshotFault? hash <;> simp

/-- What the audit takes for granted: every record is filed under its own number, no number beyond the
last one has been given away, and lists of a kind name nothing of other owners. -/
structure Tidy (s : Ledger) : Prop where
  parts : s.garage.parts.Numbered
  cars_filed : ∀ c car, s.garage.cars.cars.get? c = some car → car.id = c
  cars_fresh : ∀ c, s.garage.cars.lastId.toNat < c.number.toNat → s.garage.cars.cars.get? c = none
  kinds : s.garage.parts.OwnKinds

theorem inOrder_iff : s.InOrder hash ↔ s.Tidy ∧ ofSnapshot hash s = .ok s := by
  constructor
  · intro h
    have hfiled := h.ordered.parts.numbered.filed
    obtain ⟨hchecked, hown⟩ := (Audit.indexed_iff hfiled).mp h.ordered.parts.indexed
    refine ⟨⟨h.ordered.parts.numbered, h.ordered.cars.filed, h.ordered.cars.fresh, hown⟩, ?_⟩
    refine ofSnapshot_eq_ok_iff.mpr ⟨rfl, h.journal, ?_⟩
    exact (Audit.discrepancies_eq_nil_iff hfiled h.ordered.cars.filed).mpr
      ⟨h.sound.wired, hchecked, h.ordered.cars.indexed, h.conserved⟩
  · rintro ⟨htidy, haccepted⟩
    obtain ⟨-, hjournal, haudit⟩ := ofSnapshot_eq_ok_iff.mp haccepted
    obtain ⟨hwired, hchecked, hcars, hbank⟩ :=
      (Audit.discrepancies_eq_nil_iff htidy.parts.filed htidy.cars_filed).mp haudit
    have hindexed := (Audit.indexed_iff htidy.parts.filed).mpr ⟨hchecked, htidy.kinds⟩
    exact ⟨⟨hwired, htidy.parts.fresh, htidy.cars_fresh⟩,
      ⟨⟨hindexed, htidy.parts⟩, ⟨hcars, htidy.cars_filed, htidy.cars_fresh⟩⟩, hbank, hjournal⟩

/-- A tidy snapshot that is taken stays one that would be taken, and loses nothing. -/
theorem acceptance_kept (htidy : s.Tidy) (haccepted : ofSnapshot hash s = .ok s)
    (h : s.execute hash operation = (.ok reply, s')) :
    ofSnapshot hash s' = .ok s' ∧ s'.Tidy ∧ s.garage.Retains s'.garage := by
  have hs := inOrder_iff.mpr ⟨htidy, haccepted⟩
  obtain ⟨htidy', haccepted'⟩ := inOrder_iff.mp (inOrder_step hs (step_of_execute h))
  exact ⟨haccepted', htidy', retains_step hs.sound (step_of_execute h)⟩

theorem acceptance_kept_fair : Fair.opened.Tidy ∧ ofSnapshot Fair.hasher Fair.opened = .ok Fair.opened ∧
    ∃ reply s', Fair.opened.execute Fair.hasher Fair.purchase = (.ok reply, s') ∧
      ofSnapshot Fair.hasher s' = .ok s' ∧ s'.Tidy ∧ Fair.opened.garage.Retains s'.garage := by
  obtain ⟨htidy, haccepted⟩ := inOrder_iff.mp (inOrder_reachable Fair.reachable_opened)
  refine ⟨htidy, haccepted, ?_⟩
  rcases h : Fair.opened.execute Fair.hasher Fair.purchase with ⟨e | reply, s'⟩
  · have hok : ((Fair.opened.execute Fair.hasher Fair.purchase).1.isOk) = true := by decide +kernel
    rw [h] at hok
    cases hok
  · exact ⟨reply, s', rfl, acceptance_kept htidy haccepted h⟩

/-! ### Where the audit does not look -/

namespace Edited

open Fair

/-- Accounts 1 and 2 have an engine each. -/
def engines : Ledger := opening.run hasher
  [.mintPart (account 9) (account 1) (spec .engine), .mintPart (account 9) (account 2) (spec .engine)]

/-- Account 1 has a car, and only its wheels are left on it. -/
def oneCar : Ledger := opening.run hasher [
  .mintCar (account 1) ⟨"", [spec .engine, spec .transmission, spec .wheels]⟩ 0,
  .unequip (account 1) ⟨1⟩ ⟨1⟩, .transferPart (account 1) ⟨1⟩ (account 2),
  .unequip (account 1) ⟨1⟩ ⟨2⟩, .transferPart (account 1) ⟨2⟩ (account 3)]

def withParts (s : Ledger) (parts : PartRegistry) : Ledger := { s with garage := { s.garage with parts } }

def withCars (s : Ledger) (cars : CarRegistry) : Ledger := { s with garage := { s.garage with cars } }

/-- The number of the last part is lost. -/
def partsForgotten : Ledger := withParts engines { engines.garage.parts with lastId := 0 }

/-- The number of the last car is lost. -/
def carsForgotten : Ledger := withCars oneCar { oneCar.garage.cars with lastId := 0 }

/-- A copy of part 1 is filed under number 5. -/
def partMisfiled : Ledger := withParts engines { engines.garage.parts with
  lastId := 5
  parts := engines.garage.parts.parts.insert ⟨5⟩ ⟨⟨1⟩, account 1, spec .engine, none⟩ }

/-- An empty copy of car 1 is filed under number 5. -/
def carMisfiled : Ledger := withCars oneCar { oneCar.garage.cars with
  lastId := 5
  cars := oneCar.garage.cars.cars.insert ⟨5⟩ ⟨⟨1⟩, account 1, "", 100, .replicate none⟩ }

/-- Account 1 lists the engine of account 2 among its engines, in the place of its own. -/
def engineForeign : Ledger := withParts engines { engines.garage.parts with
  owners := engines.garage.parts.owners.insert (account 1)
    ⟨.ofList [⟨1⟩], (PerType.replicate .empty).set .engine (.ofList [⟨2⟩]), .empty, .ofList [⟨1⟩]⟩ }

/-- The snapshot is taken and the operation succeeds, but what it leaves is not taken. -/
def Breaks (s : Ledger) (operation : Operation) : Prop :=
  ofSnapshot hasher s = .ok s ∧ (s.execute hasher operation).1.isOk = true ∧
    ofSnapshot hasher (s.execute hasher operation).2 ≠ .ok (s.execute hasher operation).2

instance (s : Ledger) (operation : Operation) : Decidable (Breaks s operation) :=
  inferInstanceAs (Decidable (_ ∧ _ ∧ _))

end Edited

open Edited Fair in
/-- An accepted snapshot does not always stay acceptable: a forgotten number is given out again, over the
part or car that has it, and records in the wrong place and foreign parts upset the lists of owners. -/
theorem acceptance_lost :
    Breaks partsForgotten (.mintPart (account 9) (account 3) (spec .wheels)) ∧
    Breaks carsForgotten (.mintCar (account 4) ⟨"", [spec .engine, spec .transmission, spec .wheels]⟩ 0) ∧
    Breaks partMisfiled (.transferPart (account 1) ⟨5⟩ (account 3)) ∧
    Breaks carMisfiled (.transferCar (account 1) ⟨5⟩ (account 4)) ∧
    Breaks engineForeign (.transferPart (account 2) ⟨2⟩ (account 1)) ∧
    partsForgotten.garage.spec? ⟨1⟩ = some (spec .engine) ∧
    (partsForgotten.execute hasher (.mintPart (account 9) (account 3) (spec .wheels))).2.garage.spec? ⟨1⟩ =
      some (spec .wheels) := by
  refine ⟨?_, ?_, ?_, ?_, ?_, ?_, ?_⟩ <;> decide +kernel

end Ledger

end Paddock
