import Paddock.Proofs.Failures

/-! Runs of operations, from the beginning of a ledger and in whatever order. -/
namespace Paddock.Ledger

variable {hash : Hasher} {s s' start : Ledger} {operation : Operation} {reply : Reply}

/-- The ledgers that runs lead to, on whatever terms they began. -/
def Reachable (hash : Hasher) (s : Ledger) : Prop :=
  ∃ operator config start operations,
    genesis hash operator config = .ok start ∧ start.run hash operations = s

theorem unchanged_of_error (hs : s.Coherent) {e : LedgerError}
    (h : s.execute hash operation = (.error e, s')) : s' = s :=
  clean_perform hs operation e s' (execute_eq_error_iff.mp h)

/-- An operation is a step, or leaves everything as it was. -/
theorem execute_cases (hs : s.Coherent) (operation : Operation) :
    (s.execute hash operation).2 = s ∨ ∃ reply, Step hash s operation reply (s.execute hash operation).2 := by
  rcases h : s.execute hash operation with ⟨e | reply, s'⟩
  · exact .inl (unchanged_of_error hs h)
  · exact .inr ⟨reply, step_of_execute h⟩

theorem coherent_execute (hs : s.Coherent) (operation : Operation) :
    (s.execute hash operation).2.Coherent := by
  rcases execute_cases hs operation with h | ⟨reply, h⟩
  · rwa [h]
  · exact coherent_step hs h

theorem coherent_run (hs : s.Coherent) (operations : List Operation) :
    (s.run hash operations).Coherent := by
  induction operations generalizing s with
  | nil => exact hs
  | cons operation rest ih => exact ih (coherent_execute hs operation)

theorem coherent_reachable (h : Reachable hash s) : s.Coherent := by
  obtain ⟨operator, config, start, operations, hstart, rfl⟩ := h
  exact coherent_run (coherent_genesis hstart) operations

theorem reachable_execute (h : Reachable hash s) (operation : Operation) :
    Reachable hash (s.execute hash operation).2 := by
  obtain ⟨operator, config, start, operations, hstart, rfl⟩ := h
  exact ⟨operator, config, start, operations ++ [operation], hstart, by simp [run]⟩

/-- What holds of a new ledger and is kept by every step of a coherent one holds wherever operations
lead. -/
theorem invariant_reachable {P : Ledger → Prop}
    (hgenesis : ∀ {operator config start}, genesis hash operator config = .ok start → P start)
    (hstep : ∀ {s operation reply s'}, s.Coherent → P s → Step hash s operation reply s' → P s')
    (h : Reachable hash s) : P s := by
  obtain ⟨operator, config, start, operations, hstart, rfl⟩ := h
  have hcoherent := coherent_genesis hstart
  have hs := hgenesis hstart
  clear hstart
  induction operations generalizing start with
  | nil => exact hs
  | cons operation rest ih =>
    refine ih _ (coherent_execute hcoherent operation) ?_
    rcases execute_cases hcoherent operation with h | ⟨reply, h⟩
    · change P (start.execute hash operation).2
      rwa [h]
    · exact hstep hcoherent hs h

/-! ### A small market -/

namespace Fair

/-- Anyone, by a number. -/
def account (n : UInt8) : AccountId := ⟨List.replicate 32 n, List.length_replicate⟩

/-- All messages are alike to this hasher, so account 0 is the market. -/
def hasher : Hasher := fun _ => (account 0).digest

def spec (kind : PartType) : PartSpec := ⟨kind, ⟨1, 2, 3⟩, ""⟩

def terms : LedgerConfig := { LedgerConfig.default with mintPrice := 0, feeBps := 250 }

/-- Account 1 mints a car, and offers it without its wheels. Account 2 has currency. -/
def preparations : List Operation := [
  .deposit (account 2) 1000,
  .mintCar (account 1) ⟨"", [spec .engine, spec .transmission, spec .wheels]⟩ 0,
  .approveAll (account 1) (account 0) true,
  .list (account 1) ⟨1⟩ 400 ⟨true, true, false⟩]

def opening : Ledger where
  operator := account 9
  mintPrice := 0
  baseUri := ""
  garage := ⟨.new terms.maxStat, .new terms.maxCondition⟩
  market := { Market.empty hasher with feeBps := terms.feeBps }
  workshop := .new (.ofUInt64 terms.repairPrice) terms.repairAmount
  leaderboard := .empty
  bank := .empty
  journal := .empty

def opened : Ledger := opening.run hasher preparations

/-- Account 2 attaches more than the price. -/
def purchase : Operation := .buy (account 2) ⟨1⟩ 500

def trade : List Operation := preparations ++ [purchase]

theorem reachable_opened : Reachable hasher opened :=
  ⟨account 9, terms, opening, preparations, rfl, rfl⟩

end Fair

/-! ### Every run -/

/-- Whoever does what in whatever order, marks and slots match. -/
theorem matched_run {config : LedgerConfig} (hconfig : config.validate = .ok ()) (hash : Hasher)
    (operator : AccountId) :
    ∃ start, genesis hash operator config = .ok start ∧
      ∀ operations, (start.run hash operations).garage.Matched := by
  obtain ⟨start, hstart⟩ := exists_genesis hconfig hash operator
  exact ⟨start, hstart, fun operations =>
    (coherent_run (coherent_genesis hstart) operations).sound.matched⟩

theorem matched_run_fair : Fair.terms.validate = .ok () ∧
    ∃ start, genesis Fair.hasher (Fair.account 9) Fair.terms = .ok start ∧
      ∀ operations, (start.run Fair.hasher operations).garage.Matched :=
  ⟨rfl, matched_run rfl Fair.hasher (Fair.account 9)⟩

theorem journal_step (h : Step hash s operation reply s') :
    ∃ event, s'.journal = s.journal.append hash event := by
  cases h with
  | @setAuthority _ role _ _ => cases role <;> exact ⟨_, rfl⟩
  | _ => exact ⟨_, rfl⟩

/-- An operation that fails leaves the ledger as it was, and one that does not adds one entry to the
journal. -/
theorem execute_all_or_nothing (hs : Reachable hash s) (operation : Operation) :
    (∀ e s', s.execute hash operation = (.error e, s') → s' = s) ∧
      ∀ reply s', s.execute hash operation = (.ok reply, s') →
        ∃ entry, s'.journal.entries = s.journal.entries ++ [entry] := by
  constructor
  · intro e s' h
    exact unchanged_of_error (coherent_reachable hs) h
  · intro reply s' h
    obtain ⟨event, hjournal⟩ := journal_step (step_of_execute h)
    exact ⟨s.journal.prepare hash event, by rw [hjournal]; rfl⟩

theorem execute_all_or_nothing_fair : Reachable Fair.hasher Fair.opened ∧
    (∀ e s', Fair.opened.execute Fair.hasher Fair.purchase = (.error e, s') → s' = Fair.opened) ∧
      ∀ reply s', Fair.opened.execute Fair.hasher Fair.purchase = (.ok reply, s') →
        ∃ entry, s'.journal.entries = Fair.opened.journal.entries ++ [entry] :=
  ⟨Fair.reachable_opened, execute_all_or_nothing Fair.reachable_opened Fair.purchase⟩

end Paddock.Ledger
