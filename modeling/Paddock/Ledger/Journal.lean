import Paddock.Json.Printer
import Paddock.Ledger.Event

/-!
The journal: a list of events, each entry linked to the one before by its hash. All of it works for
any hash function.
-/
namespace Paddock

open Json

instance : Encode Digest := ⟨fun d => .string d.toHex⟩

instance : Decode Digest where
  decode?
    | .string text => Digest.ofHex? text
    | _ => none

/-- An entry's hash covers its number, the hash of the entry before, and its event. -/
structure Entry where
  seq : UInt64
  prev : Option Digest
  hash : Digest
  event : Event
deriving DecidableEq, Repr

namespace Entry

/-- What is hashed for an entry. -/
def body (seq : UInt64) (prev : Option Digest) (event : Event) : Json :=
  .object [("seq", encode seq), ("prev_hash", encode prev), ("event", encode event)]

def message (seq : UInt64) (prev : Option Digest) (event : Event) : List UInt8 :=
  utf8 "rush-journal-v1:" ++ utf8 (compact (body seq prev event))

/-- The entry with the hash that it ought to have. -/
def sealed (hash : Hasher) (seq : UInt64) (prev : Option Digest) (event : Event) : Entry :=
  ⟨seq, prev, hash (message seq prev event), event⟩

end Entry

structure Journal where
  entries : List Entry
deriving DecidableEq, Repr

inductive ViolationKind where
  | sequenceGap
  | hashChainBreak
  | hashMismatch
deriving DecidableEq, Repr

def ViolationKind.name : ViolationKind → String
  | sequenceGap => "SequenceGap"
  | hashChainBreak => "HashChainBreak"
  | hashMismatch => "HashMismatch"

/-- What is wrong with the entry that bears this number. -/
structure Violation where
  seq : UInt64
  kind : ViolationKind
  description : String
deriving DecidableEq, Repr

structure ValidationReport where
  entryCount : UInt64
  hashChainValid : Bool
  sequenceMonotonic : Bool
  violations : List Violation
deriving DecidableEq, Repr

def ValidationReport.isValid (r : ValidationReport) : Bool := r.violations.isEmpty

namespace Journal

def empty : Journal := ⟨[]⟩

def size (j : Journal) : Nat := j.entries.length

def head? (j : Journal) : Option Entry := j.entries.getLast?

/-- The number that comes after so many entries. -/
def seqAfter (count : Nat) : UInt64 := UInt64.ofNat (count + 1)

/-- The next entry, not yet added. -/
def prepare (hash : Hasher) (j : Journal) (event : Event) : Entry :=
  .sealed hash (seqAfter j.size) (j.head?.map Entry.hash) event

def commit (j : Journal) (entry : Entry) : Journal := ⟨j.entries ++ [entry]⟩

def append (hash : Hasher) (j : Journal) (event : Event) : Journal :=
  j.commit (j.prepare hash event)

/-- The journal of some events, from the beginning. -/
def ofEvents (hash : Hasher) (events : List Event) : Journal :=
  events.foldl (append hash) empty

/-! ### Validation -/

def gapOf (index : Nat) (entry : Entry) : List Violation :=
  if entry.seq = seqAfter index then []
  else [⟨entry.seq, .sequenceGap,
    s!"expected seq {(seqAfter index).toNat}, got {entry.seq.toNat}"⟩]

def breakOf (prev : Option Digest) (entry : Entry) : List Violation :=
  if entry.prev = prev then []
  else [⟨entry.seq, .hashChainBreak, "previous hash link mismatch"⟩]

def mismatchOf (hash : Hasher) (entry : Entry) : List Violation :=
  if hash (Entry.message entry.seq entry.prev entry.event) = entry.hash then []
  else [⟨entry.seq, .hashMismatch, "entry hash does not match computed"⟩]

/-- Looks at the entries from the one at `index` on, `prev` being the hash before it. -/
def validateFrom (hash : Hasher) (index : Nat) (prev : Option Digest) (report : ValidationReport) :
    List Entry → ValidationReport
  | [] => report
  | entry :: rest =>
    let gap := gapOf index entry
    let link := breakOf prev entry
    let mismatch := mismatchOf hash entry
    let report := { report with
      sequenceMonotonic := report.sequenceMonotonic && gap.isEmpty
      hashChainValid := report.hashChainValid && link.isEmpty && mismatch.isEmpty
      violations := report.violations ++ gap ++ link ++ mismatch }
    validateFrom hash (index + 1) (some entry.hash) report rest

/-- Checks numbers, links and hashes, entry by entry. -/
def validate (hash : Hasher) (j : Journal) : ValidationReport :=
  validateFrom hash 0 none ⟨UInt64.ofNat j.size, true, true, []⟩ j.entries

end Journal

instance : Encode Entry where
  encode e := .object [
    ("seq", encode e.seq),
    ("prev_hash", encode e.prev),
    ("hash", encode e.hash),
    ("event", encode e.event)]

instance : Decode Entry where
  decode? j :=
    match fields? [["seq"], ["prev_hash"], ["hash"], ["event"]] j with
    | some [seq, prev, hash, event] => do
      let seq ← required seq
      let prev ← required prev
      let hash ← required hash
      let event ← required event
      return ⟨seq, prev, hash, event⟩
    | _ => none

instance : Encode Journal where
  encode j := .object [("entries", encode j.entries)]

instance : Decode Journal where
  decode? j :=
    match fields? [["entries"]] j with
    | some [entries] => do return ⟨← required entries⟩
    | _ => none

instance : Encode Violation where
  encode v := .object [
    ("seq", encode v.seq),
    ("kind", .string v.kind.name),
    ("description", encode v.description)]

instance : Encode ValidationReport where
  encode r := .object [
    ("entry_count", encode r.entryCount),
    ("hash_chain_valid", encode r.hashChainValid),
    ("sequence_monotonic", encode r.sequenceMonotonic),
    ("violations", encode r.violations)]

end Paddock
