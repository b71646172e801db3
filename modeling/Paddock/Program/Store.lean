import Paddock.Disk
import Paddock.Ledger.Request
import Paddock.Ledger.Snapshot

/-!
The store: a ledger kept as a snapshot in one file. A change is made to the ledger that the file
holds, and the file is replaced only if the change succeeds.
-/
namespace Paddock.Store

variable (hash : Hasher) (path : String)

def ofSystem (fault : SystemFault) : Failure := .ofOrigin (.system fault)

def read (disk : Disk) : Except Failure Ledger :=
  match disk.read path with
  | .error fault => .error ((ofSystem fault).during s!"reading state {path} (run `rush init` first)")
  | .ok text =>
    match Ledger.ofJson hash text with
    | .ok s => .ok s
    | .error e => .error ((Failure.ofCause e.cause).during s!"loading state {path}")

def load : Change Failure Disk Ledger := .check (read hash path)

/-- The new file is written beside the old one and then takes its place. -/
def save (s : Ledger) : Change Failure Disk Unit := do
  let directory := Path.parent path
  let draft ← (Disk.createDraft directory).adaptExcept fun fault =>
    (ofSystem fault).during s!"creating temp file in {directory}"
  modify (·.put draft (.file s.toJson))
  (Disk.persist draft path).adaptExcept fun fault =>
    let persisting := s!"failed to persist temporary file: {fault.message}"
    ((ofSystem fault).during persisting).during s!"writing state {path}"

/-- Makes a change to the ledger in the file. What a change that fails did to the ledger is lost. -/
def update {α : Type} (change : Change Failure Ledger α) : Change Failure Disk α := do
  let s ← load hash path
  match change s with
  | .ok a s' => do
    save path s'
    return a
  | .error failure _ => throw failure

/-- Makes a request to the ledger in the file. -/
def serve (request : Request) : Change Failure Disk Ledger.Served :=
  update hash path ((Ledger.serve hash request).adaptExcept fun e => .ofCause e.cause)

end Paddock.Store
