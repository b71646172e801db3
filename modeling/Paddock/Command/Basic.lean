import Paddock.Command.Value
import Paddock.Generator.Descriptor
import Paddock.Ledger.Request

/-!
Commands: what the program can be told to do.
-/
namespace Paddock

/-- What is asked of the ledger without changing it. -/
inductive Query where
  | balance (account : Option AccountId)
  | listings
  | approvalStatus (car : CarId) (included : PerType Bool)
  | leaderboard (limit : Nat)
  | car (id : CarId)
  | cars (owner : AccountId)
  | parts (owner : AccountId) (kind : Option PartType) (equipped : Option Bool)
  | tokenUri (target : ApprovalTarget)
  | log (limit : Nat)
  | verify
deriving DecidableEq, Repr

/-- What a car is minted from: a file, or an image and stats. -/
inductive MintSource where
  | file (path : String)
  | given (image : Option String) (stats : PerType (Option PartStats))
deriving DecidableEq, Repr

inductive Command where
  | init (operator : AccountId) (force : Bool)
  | query (query : Query)
  | request (request : Request)
  | mintCar (caller : AccountId) (source : MintSource) (payment : Option Amount)
  | generate (caller : AccountId) (request : GenerationRequest) (payment : Option Amount)
    (dryRun : Bool)
deriving DecidableEq, Repr

/-- A command, and where and how to carry it out. -/
structure Invocation where
  command : Command
  format : Command.OutputFormat
  statePath : String
  configPath : String
deriving DecidableEq, Repr

end Paddock
