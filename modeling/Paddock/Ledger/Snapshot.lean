import Paddock.Json.Parser
import Paddock.Ledger.Basic

/-!
Snapshots: a ledger as text, and back. A text is taken only if the journal is sound and the audit
finds nothing.
-/
namespace Paddock

open Json

def Ledger.fieldNames : List (List String) := [
  ["operator"], ["mint_price"], ["base_uri"], ["parts"], ["cars"], ["market"], ["workshop"],
  ["leaderboard"], ["bank"], ["journal"]]

instance : Encode Ledger where
  encode s := .object [
    ("operator", encode s.operator),
    ("mint_price", encode s.mintPrice),
    ("base_uri", encode s.baseUri),
    ("parts", encode s.garage.parts),
    ("cars", encode s.garage.cars),
    ("market", encode s.market),
    ("workshop", encode s.workshop),
    ("leaderboard", encode s.leaderboard),
    ("bank", encode s.bank),
    ("journal", encode s.journal)]

instance : Decode Ledger where
  decode? j :=
    match fields? Ledger.fieldNames j with
    | some [operator, mintPrice, baseUri, parts, cars, market, workshop, leaderboard, bank, journal] => do
      let operator ← required operator
      let mintPrice ← required mintPrice
      let baseUri ← withDefault "" baseUri
      let parts ← required parts
      let cars ← required cars
      let market ← required market
      let workshop ← required workshop
      let leaderboard ← required leaderboard
      let bank ← required bank
      let journal ← required journal
      return ⟨operator, mintPrice, baseUri, ⟨parts, cars⟩, market, workshop, leaderboard, bank, journal⟩
    | _ => none

namespace Ledger

variable (hash : Hasher)

/-- The first thing that speaks against a snapshot. -/
def snapshotFault? (s : Ledger) : Option SnapshotFault :=
  let report := s.journal.validate hash
  if !report.isValid then some (.journal report.violations.length)
  else s.audit.discrepancies.head?.map .audit

def ofSnapshot (s : Ledger) : Except LedgerError Ledger :=
  match s.snapshotFault? hash with
  | some fault => .error (.corruptSnapshot fault)
  | none => .ok s

def ofJson (text : String) : Except LedgerError Ledger :=
  match (Json.parse text).bind decode? with
  | some s => ofSnapshot hash s
  | none => .error .unreadableSnapshot

def toJson (s : Ledger) : String := Json.indented (encode s)

end Ledger

end Paddock
