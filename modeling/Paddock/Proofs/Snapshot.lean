import Paddock.Proofs.Acceptance
import Paddock.Proofs.Json.Records

/-! Snapshots as text: what is written of a ledger is that ledger again when it is read. -/
namespace Paddock.Ledger

variable {hash : Hasher} {s : Ledger}

theorem parse_toJson (s : Ledger) : (Json.parse s.toJson).bind Json.decode? = some s := by
  have hheight : Json.Lossless.height Ledger ≤ Json.Reader.depthLimit := by decide
  have hfits : (Json.encode s).Fits Json.Reader.depthLimit := (Json.Lossless.fits s).mono hheight
  rw [toJson, Json.parse_indented hfits, Option.bind_some, Json.Lossless.decode_encode]

/-- The text of a ledger is taken if the ledger itself is. -/
theorem ofJson_toJson (hash : Hasher) (s : Ledger) : ofJson hash s.toJson = ofSnapshot hash s := by
  rw [ofJson, parse_toJson]

theorem InOrder.ofJson_toJson (h : s.InOrder hash) : ofJson hash s.toJson = .ok s :=
  (Ledger.ofJson_toJson hash s).trans (inOrder_iff.mp h).2

/-- Wherever operations lead, nothing is wrong with the ledger, its text is read as the same ledger in
every part, and whatever is done to the one has the same outcome for the other. -/
theorem snapshot_restored (h : Reachable hash s) :
    s.audit.isValid = true ∧ (s.journal.validate hash).isValid = true ∧
      ∃ loaded, ofJson hash s.toJson = .ok loaded ∧ loaded = s ∧
        ∀ operation, loaded.execute hash operation = s.execute hash operation := by
  have hs := inOrder_reachable h
  have haccepted := (inOrder_iff.mp hs).2
  obtain ⟨-, hjournal, haudit⟩ := ofSnapshot_eq_ok_iff.mp haccepted
  exact ⟨List.isEmpty_iff.mpr haudit, hjournal, s, hs.ofJson_toJson, rfl, fun _ => rfl⟩

theorem snapshot_restored_fair : Reachable Fair.hasher Fair.opened ∧
    Fair.opened.audit.isValid = true ∧ (Fair.opened.journal.validate Fair.hasher).isValid = true ∧
      ∃ loaded, ofJson Fair.hasher Fair.opened.toJson = .ok loaded ∧ loaded = Fair.opened ∧
        ∀ operation, loaded.execute Fair.hasher operation = Fair.opened.execute Fair.hasher operation :=
  ⟨Fair.reachable_opened, snapshot_restored Fair.reachable_opened⟩

end Paddock.Ledger
