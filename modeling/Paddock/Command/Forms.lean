import Paddock.Command.Basic
import Paddock.Command.Scan

/-!
The form of every command: its name, its parameters, and the command that the values found for them
make.
-/
namespace Paddock.Command

/-- A command is made of the values found, if none is missing. -/
structure Form where
  name : String
  parameters : List Parameter
  conflicts : List (String × String) := []
  make : Found → Option Command

/-! ### Parameters -/

def place (name : String) (kind : Kind) : Parameter := { name, kind, positional := true }

def option (name : String) (kind : Kind) : Parameter := { name, kind }

def flag (name : String) : Parameter := option name .flag

def caller : Parameter := option "as" .account

def limit : Parameter := { name := "limit", kind := .word, letter := some 'n' }

def help : Parameter := { name := "help", kind := .help, letter := some 'h' }

def version : Parameter := { name := "version", kind := .version, letter := some 'V' }

/-- Parameters that may stand before a subcommand as well as behind it. -/
def shared : List Parameter := [
  { name := "verbose", kind := .flag, letter := some 'v' },
  option "format" .format,
  option "state" .path,
  option "config" .path]

/-! ### Making commands -/

def exact (operation : Operation) : Command := .request (.exact operation)

def included (f : Found) : PerType Bool :=
  let kinds : List PartType := f.all "include"
  .ofFn kinds.contains

/-- A car goes before a part. -/
def target (f : Found) : ApprovalTarget :=
  match (f.get? "car" : Option CarId), (f.get? "part" : Option PartId) with
  | some car, _ => .car car
  | none, some part => .part part
  | none, none => .all

def mintSource (f : Found) : MintSource :=
  match f.get? "request" with
  | some path => .file path
  | none => .given (f.get? "image") ⟨f.get? "engine", f.get? "transmission", f.get? "wheels"⟩

def limitOf (f : Found) (default : Nat) : Nat :=
  match (f.get? "limit" : Option UInt64) with
  | some n => n.toNat
  | none => default

/-- Whether equipped parts are meant, or loose ones, or both. -/
def side (f : Found) : Option Bool :=
  if f.has "equipped" then some true
  else if f.has "unequipped" then some false
  else none

/-! ### The forms -/

def setup : List Form := [
  { name := "init"
    parameters := [option "operator" .account, flag "force"]
    make := fun f => do return .init (← f.get? "operator") (f.has "force") },
  { name := "deposit"
    parameters := [place "account" .account, place "amount" .amount]
    make := fun f => do return exact (.deposit (← f.get? "account") (← f.get? "amount")) },
  { name := "balance"
    parameters := [place "account" .account]
    make := fun f => some (.query (.balance (f.get? "account"))) }]

def minting : List Form := [
  { name := "mint-car"
    parameters := [caller, option "request" .path, option "image" .text, option "engine" .stats,
      option "transmission" .stats, option "wheels" .stats, option "payment" .amount]
    conflicts := [("request", "image"), ("request", "engine"), ("request", "transmission"),
      ("request", "wheels")]
    make := fun f => do return .mintCar (← f.get? "as") (mintSource f) (f.get? "payment") },
  { name := "generate"
    parameters := [caller, place "prompt" .text, option "style" .text, option "payment" .amount,
      flag "dry-run"]
    make := fun f => do
      let prompt ← f.get? "prompt"
      return .generate (← f.get? "as") { prompt, style := f.get? "style" } (f.get? "payment")
        (f.has "dry-run") },
  { name := "mint-part"
    parameters := [caller, place "owner" .account, place "part-type" .partType,
      place "stats" .stats, option "image" .text]
    make := fun f => do
      let image := (f.get? "image").getD ""
      let spec : PartSpec := ⟨← f.get? "part-type", ← f.get? "stats", image⟩
      return exact (.mintPart (← f.get? "as") (← f.get? "owner") spec) }]

def composing : List Form := [
  { name := "equip"
    parameters := [caller, place "car" .word, place "part" .word, option "slot" .word]
    make := fun f => do
      let caller ← f.get? "as"
      let car ← f.get? "car"
      let part ← f.get? "part"
      match f.get? "slot" with
      | some slot => return exact (.equip caller car part slot)
      | none => return .request (.equip caller car part) },
  { name := "unequip"
    parameters := [caller, place "car" .word, place "part" .word]
    make := fun f => do
      return exact (.unequip (← f.get? "as") (← f.get? "car") (← f.get? "part")) },
  { name := "replace"
    parameters := [caller, place "car" .word, place "old" .word, place "new" .word]
    make := fun f => do
      return exact (.replace (← f.get? "as") (← f.get? "car") (← f.get? "old") (← f.get? "new")) }]

def ownership : List Form := [
  { name := "transfer-part"
    parameters := [caller, place "part" .word, place "to" .account]
    make := fun f => do
      return exact (.transferPart (← f.get? "as") (← f.get? "part") (← f.get? "to")) },
  { name := "transfer-car"
    parameters := [caller, place "car" .word, place "to" .account]
    make := fun f => do
      return exact (.transferCar (← f.get? "as") (← f.get? "car") (← f.get? "to")) },
  { name := "approve"
    parameters := [caller, option "spender" .account, option "car" .word, option "part" .word,
      flag "revoke"]
    conflicts := [("car", "part")]
    make := fun f => do
      return .request
        (.approve (← f.get? "as") (f.get? "spender") (target f) (!f.has "revoke")) }]

def selling : List Form := [
  { name := "list"
    parameters := [caller, place "car" .word, place "price" .amount, option "include" .partTypes]
    make := fun f => do
      return exact (.list (← f.get? "as") (← f.get? "car") (← f.get? "price") (included f)) },
  { name := "cancel"
    parameters := [caller, place "car" .word]
    make := fun f => do return exact (.cancel (← f.get? "as") (← f.get? "car")) },
  { name := "buy"
    parameters := [caller, place "car" .word, option "payment" .amount]
    make := fun f => do
      let caller ← f.get? "as"
      let car ← f.get? "car"
      match f.get? "payment" with
      | some payment => return exact (.buy caller car payment)
      | none => return .request (.buy caller car) },
  { name := "listings", parameters := [], make := fun _ => some (.query .listings) },
  { name := "approval-status"
    parameters := [place "car" .word, option "include" .partTypes]
    make := fun f => do return .query (.approvalStatus (← f.get? "car") (included f)) }]

def racing : List Form := [
  { name := "repair"
    parameters := [caller, place "car" .word, option "payment" .amount]
    make := fun f => do
      let caller ← f.get? "as"
      let car ← f.get? "car"
      match f.get? "payment" with
      | some payment => return exact (.repair caller car payment)
      | none => return .request (.repair caller car) },
  { name := "wear"
    parameters := [caller, place "car" .word, place "amount" .byte]
    make := fun f => do
      return exact (.wear (← f.get? "as") (← f.get? "car") (← f.get? "amount")) },
  { name := "race"
    parameters := [caller, place "car" .word, place "score" .word]
    make := fun f => do
      return exact (.race (← f.get? "as") (← f.get? "car") (← f.get? "score")) },
  { name := "leaderboard"
    parameters := [limit]
    make := fun f => some (.query (.leaderboard (limitOf f 10))) }]

def looking : List Form := [
  { name := "car"
    parameters := [place "car" .word]
    make := fun f => do return .query (.car (← f.get? "car")) },
  { name := "cars"
    parameters := [place "owner" .account]
    make := fun f => do return .query (.cars (← f.get? "owner")) },
  { name := "parts"
    parameters := [place "owner" .account, option "type" .partType, flag "equipped",
      flag "unequipped"]
    conflicts := [("equipped", "unequipped")]
    make := fun f => do return .query (.parts (← f.get? "owner") (f.get? "type") (side f)) },
  { name := "token-uri"
    parameters := [option "car" .word, option "part" .word]
    conflicts := [("car", "part")]
    make := fun f => some (.query (.tokenUri (target f))) },
  { name := "log"
    parameters := [limit]
    make := fun f => some (.query (.log (limitOf f 20))) },
  { name := "verify", parameters := [], make := fun _ => some (.query .verify) }]

def administration : List Form := [
  { name := "set-mint-price"
    parameters := [caller, place "price" .amount]
    make := fun f => do return exact (.setMintPrice (← f.get? "as") (← f.get? "price")) },
  { name := "set-repair-price"
    parameters := [caller, place "price" .amount]
    make := fun f => do return exact (.setRepairPrice (← f.get? "as") (← f.get? "price")) },
  { name := "set-fee"
    parameters := [caller, place "bps" .short]
    make := fun f => do return exact (.setFee (← f.get? "as") (← f.get? "bps")) },
  { name := "set-authority"
    parameters := [caller, place "role" .role, place "account" .account]
    make := fun f => do
      return exact (.setAuthority (← f.get? "as") (← f.get? "role") (f.get? "account")) },
  { name := "withdraw"
    parameters := [caller, option "amount" .amount]
    make := fun f => do return exact (.withdraw (← f.get? "as") (f.get? "amount")) },
  { name := "transfer-operator"
    parameters := [caller, place "to" .account]
    make := fun f => do return exact (.transferOperator (← f.get? "as") (← f.get? "to")) },
  { name := "set-base-uri"
    parameters := [caller, place "uri" .text]
    make := fun f => do return exact (.setBaseUri (← f.get? "as") (← f.get? "uri")) }]

def forms : List Form :=
  setup ++ minting ++ composing ++ ownership ++ selling ++ racing ++ looking ++ administration

/-- What may stand before the subcommand. -/
def outerLevel : Level where
  parameters := help :: version :: shared
  subcommands := "help" :: forms.map Form.name

/-- What may stand behind the subcommand. -/
def Form.level (form : Form) : Level where
  parameters := form.parameters ++ help :: shared
  conflicts := form.conflicts

/-! ### Reading -/

/-- A shared value: the one behind the subcommand goes before the one in front of it. -/
def sharedValue {α : Type} [OfValue α] (inner outer : Found) (name : String) (default : α) : α :=
  (inner.get? name <|> outer.get? name).getD default

def parse (hash : Hasher) (args : List String) : Except UsageFault Invocation := do
  let (scan, subcommand) ← outerLevel.start.takeAll hash outerLevel args
  match subcommand with
  | none =>
    let found ← scan.finish hash outerLevel
    throw (if found.values.isEmpty then .nothingGiven else .missingSubcommand)
  | some (name, rest) =>
    let some form := forms.find? (·.name == name) | throw .unknownSubcommand
    let (innerScan, _) ← form.level.start.takeAll hash form.level rest
    let inner ← innerScan.finish hash form.level
    let some command := form.make inner | throw .missingArgument
    let outer ← scan.finish hash outerLevel
    return {
      command
      format := sharedValue inner outer "format" .text
      statePath := sharedValue inner outer "state" "rush-state.json"
      configPath := sharedValue inner outer "config" "rush.toml" }

end Paddock.Command
