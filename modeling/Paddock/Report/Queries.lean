import Paddock.Command.Basic
import Paddock.Ledger.Basic
import Paddock.Report.Operations

/-!
What is shown of a ledger that is asked, and of a car that is only described.
-/
namespace Paddock

namespace Report

open Json

def ofBalance (account : Option AccountId) (balance : Amount) : Report where
  lines :=
    let shown := Piece.bold (toString balance)
    match account with
    | some account => [[.coloured .cyan (toString account), ": ", shown]]
    | none => [["Treasury: ", shown]]
  view := balanceView account balance

/-! ### The market -/

def listingLine (l : Listing) : Line :=
  let kinds := PartType.all.filter l.included.get
  [.vivid .yellow (toString l.car), "  ", .bold (toString l.price),
    s!"  seller {l.seller}  parts [", String.intercalate ", " (kinds.map PartType.name), "]"]

def ofListings (listings : List Listing) : Report where
  lines :=
    if listings.isEmpty then [["No active listings."]]
    else listings.map listingLine
  view := encode listings

def approvalMark (approved : Bool) : Piece :=
  if approved then .coloured .green "✓" else .coloured .red "✗"

def approvalLine (s : ApprovalStatus) (t : PartType) : Option Line :=
  (s.parts.get t).map fun approved => [padRight 13 (t.name ++ ":"), " ", approvalMark approved]

def readiness (s : ApprovalStatus) : Line :=
  if s.all then [.vivid .green "Ready for sale"]
  else [.coloured .yellow "Marketplace approval missing"]

def ofApprovalStatus (s : ApprovalStatus) : Report where
  lines := ["Car: ", approvalMark s.car] ::
    (PartType.all.filterMap (approvalLine s) ++ [readiness s])
  view := encode s

/-! ### Racing -/

def rankLine (i : Nat) (e : ScoreEntry) : Line :=
  [padLeft 3 (toString (i + 1)), ". ", .coloured .yellow (toString e.car), "  ",
    .bold (toString e.score.toNat)]

def ofRanking (entries : List ScoreEntry) : Report where
  lines := if entries.isEmpty then [["No results recorded."]] else entries.mapIdx rankLine
  view := encode entries

/-! ### Cars and parts -/

def ofCar (m : CarMetadata) : Report where
  lines := carLines m
  view := encode m

def ofCars (owner : AccountId) (cars : List CarMetadata) : Report where
  lines := if cars.isEmpty then [[s!"{owner} owns no cars."]] else cars.flatMap carLines
  view := encode cars

def location : Option CarId → Piece
  | some car => .coloured .green s!"on {car}"
  | none => .dimmed "spare"

def ofParts (parts : List Part) : Report where
  lines :=
    if parts.isEmpty then [["No parts."]]
    else parts.map fun p => [partRow p, "  ", location p.equippedTo]
  view := encode parts

def describedPart (spec : PartSpec) : Line :=
  [s!"  {padRight 12 spec.kind.name} {statColumns spec.stats}  ", .dimmed spec.image]

def ofDescriptor (d : CarDescriptor) : Report where
  lines := ["Image: ", .coloured .blue d.image] :: d.parts.map describedPart
  view := encode d

def ofUri (uri : String) : Report where
  lines := [[uri]]
  view := encode uri

/-! ### The journal and the audit -/

/-- The number, the first twelve digits of the hash, and the event. -/
def entryLine (e : Entry) : Line :=
  [.coloured .yellow s!"#{e.seq.toNat}", "  ",
    .dimmed (String.ofList (e.hash.toHex.toList.take 12)), "  ", Json.compact (encode e.event)]

/-- The lines begin with the newest entry, the value with the oldest. -/
def ofEntries (entries : List Entry) : Report where
  lines := entries.reverse.map entryLine
  view := encode entries

def verdict (valid : Bool) : Piece :=
  if valid then .coloured .green "valid" else .vivid .red "BROKEN"

def cross : Piece := .coloured .red "✗"

def violationLine (v : Violation) : Line := ["  ", cross, s!" #{v.seq.toNat}: {v.description}"]

def discrepancyLine (d : Discrepancy) : Line :=
  ["  ", cross, s!" {d.kind.name}: {d.description}"]

def summary (journal : ValidationReport) (audit : AuditReport) : List Line := [
  ["Journal: ", .bold (toString journal.entryCount.toNat), " entries"],
  ["  Hash chain: ", verdict journal.hashChainValid],
  ["  Sequences: ", verdict journal.sequenceMonotonic],
  [s!"Invariants: {audit.partsChecked} parts, {audit.carsChecked} cars, ", verdict audit.isValid]]

def ofVerification (journal : ValidationReport) (audit : AuditReport) : Report where
  lines := summary journal audit ++ journal.violations.map violationLine ++
    audit.discrepancies.map discrepancyLine
  view := some (.object [("journal", encode journal), ("invariants", encode audit)])
  complaint := if journal.isValid && audit.isValid then none else some "ledger verification failed"

end Report

namespace Query

/-- The parts of an owner on one side or both, of one kind or any. -/
def ownedParts (s : Ledger) (owner : AccountId) (kind : Option PartType) (equipped : Option Bool) :
    List Part :=
  let details := s.garage.parts.details owner
  let side := match equipped with
    | some true => details.equipped
    | some false => details.unequipped
    | none => details.all
  side.filter fun part => kind.all (part.kind == ·)

def uri (s : Ledger) : ApprovalTarget → Except LedgerError String
  | .car id => s.carUri id
  | .part id => s.partUri id
  | .all => .ok s.baseUri

def answer (hash : Hasher) (s : Ledger) : Query → Except LedgerError Report
  | .balance (some account) => .ok (.ofBalance (some account) (s.bank.balance account))
  | .balance none => .ok (.ofBalance none s.bank.treasury)
  | .listings => .ok (.ofListings s.market.activeListings)
  | .approvalStatus id included =>
    ((s.market.approvalStatus s.garage id included).map Report.ofApprovalStatus).mapError .market
  | .leaderboard limit => .ok (.ofRanking (s.leaderboard.top limit))
  | .car id => ((s.garage.metadata id).map Report.ofCar).mapError .cars
  | .cars owner => ((s.garage.allMetadata owner).map (Report.ofCars owner)).mapError .cars
  | .parts owner kind equipped => .ok (.ofParts (ownedParts s owner kind equipped))
  | .tokenUri target => (uri s target).map Report.ofUri
  | .log limit =>
    .ok (.ofEntries (s.journal.entries.drop (s.journal.entries.length - limit)))
  | .verify => .ok (.ofVerification (s.journal.validate hash) s.audit)

end Query

end Paddock
