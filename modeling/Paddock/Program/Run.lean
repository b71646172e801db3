import Paddock.Command.Forms
import Paddock.Program.Settings
import Paddock.Program.Store
import Paddock.Report.Queries

/-!
The program: a command is carried out on a disk, and shows something or fails. The network and the
hash function are parameters.
-/
namespace Paddock

structure Environment where
  hash : Hasher
  network : Network
  colours : Bool

/-- A command can fail and still have shown something. -/
structure Outcome where
  disk : Disk
  output : String
  failure : Option Failure

/-! ### What a car is minted from -/

namespace MintSource

/-- The name of a kind among options, and in the images of its parts. -/
def kindName (t : PartType) : String := String.ofList (t.name.toList.map Char.toLower)

def givenSpec (image : String) (stats : PerType (Option PartStats)) (t : PartType) :
    Except Failure PartSpec :=
  match stats.get t with
  | some values => .ok ⟨t, values, s!"{image}#{kindName t}"⟩
  | none => .error (.ofText s!"--{kindName t} is required without --request")

def read (disk : Disk) : MintSource → Except Failure MintRequest
  | .file path =>
    match disk.read path with
    | .error fault => .error ((Failure.ofOrigin (.system fault)).during s!"reading {path}")
    | .ok text =>
      match (Json.parse text).bind Json.decode? with
      | some request => .ok request
      | none => .error ((Failure.ofOrigin .json).during s!"parsing {path}")
  | .given none _ => .error (.ofText "--image is required without --request")
  | .given (some image) stats => do
    let parts ← PartType.all.mapM (givenSpec image stats)
    return ⟨image, parts⟩

/-- Without a payment the price is paid. -/
def toRequest (caller : AccountId) (request : MintRequest) : Option Amount → Request
  | some payment => .exact (.mintCar caller request payment)
  | none => .mintCar caller request

end MintSource

/-! ### Carrying out commands -/

namespace Invocation

/-- The paths of all that the command looks at. -/
def paths (inv : Invocation) : List String :=
  let request := match inv.command with
    | .mintCar _ (.file path) _ => [path]
    | _ => []
  [inv.configPath, inv.statePath, Path.parent inv.statePath] ++ request

variable (env : Environment) (inv : Invocation)

def serve (request : Request) : Change Failure Disk Report := do
  let served ← Store.serve env.hash inv.statePath request
  return .ofServed request served

/-- Whether there may be a new state file. -/
def checkInit (force : Bool) (disk : Disk) : Except Failure Unit :=
  if disk.contains inv.statePath && !force then
    .error (.ofText s!"{inv.statePath} already exists (use --force to overwrite)")
  else .ok ()

def init (settings : Settings) (operator : AccountId) (force : Bool) : Change Failure Disk Report := do
  Change.check (checkInit inv force)
  let s ← .check fun _ =>
    (Ledger.genesis env.hash operator settings.ledger).mapError fun e => .ofCause e.cause
  Store.save inv.statePath s
  return .initialized inv.statePath operator settings.ledger

def ask (query : Query) : Change Failure Disk Report := do
  let s ← Store.load env.hash inv.statePath
  .check fun _ => (query.answer env.hash s).mapError fun e => .ofCause e.cause

/-- What the generator that the settings name answers to a request. -/
def describe (settings : Settings) (request : GenerationRequest) : Except Failure CarDescriptor := do
  let service ← (GeneratorService.ofConfig settings.generator).mapError GeneratorError.failure
  (service.generate env.network request).mapError fun e => e.failure.during s!"generating from {service.url}"

/-- Asks the generator for a car and mints it, unless it is only to be shown. -/
def generate (settings : Settings) (caller : AccountId) (request : GenerationRequest)
    (payment : Option Amount) (dryRun : Bool) : Change Failure Disk Report := do
  let descriptor ← .check fun _ => describe env settings request
  if dryRun then return .ofDescriptor descriptor
  else serve env inv (MintSource.toRequest caller descriptor.toMintRequest payment)

def perform : Change Failure Disk Report := do
  let settings ← .check (Settings.load · inv.configPath)
  match inv.command with
  | .init operator force => init env inv settings operator force
  | .query query => ask env inv query
  | .request request => serve env inv request
  | .mintCar caller source payment =>
    let request ← .check source.read
    serve env inv (MintSource.toRequest caller request payment)
  | .generate caller request payment dryRun =>
    generate env inv settings caller request payment dryRun

/-- Carries out a command on a disk. -/
def run (env : Environment) (disk : Disk) (inv : Invocation) : Outcome :=
  match perform env inv disk with
  | .ok report disk =>
    ⟨disk, report.render inv.format env.colours, report.complaint.map Failure.ofText⟩
  | .error failure disk => ⟨disk, "", some failure⟩

end Invocation

/-- The number that the program ends with. -/
def Outcome.exitCode (o : Outcome) : UInt32 := if o.failure.isSome then 1 else 0

/-- Asking for help or for the version is no mistake. -/
def Command.UsageFault.exitCode : Command.UsageFault → UInt32
  | help | version => 0
  | _ => 2

end Paddock
