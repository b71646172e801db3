import Paddock.Main
import Paddock.Json.Path
import Paddock.Proofs.Change
import Paddock.Proofs.Registry
import Paddock.Proofs.Slots
import Paddock.Proofs.Steps
import Paddock.Proofs.Bank
import Paddock.Proofs.Offers
import Paddock.Proofs.Sale
import Paddock.Proofs.Coherent
import Paddock.Proofs.Failures
import Paddock.Proofs.Runs
import Paddock.Proofs.Purchase
import Paddock.Proofs.Funds
import Paddock.Proofs.Batch
import Paddock.Proofs.Currency
import Paddock.Proofs.Holdings
import Paddock.Proofs.Upkeep
import Paddock.Proofs.Supply
import Paddock.Proofs.Audit
import Paddock.Proofs.Journal
import Paddock.Proofs.Acceptance
import Paddock.Proofs.Leaderboard
import Paddock.Proofs.Arithmetic
import Paddock.Proofs.Findings
import Paddock.Proofs.Json.Read
import Paddock.Proofs.Json.Codec
import Paddock.Proofs.Json.Keys
import Paddock.Proofs.Json.Records
import Paddock.Proofs.Snapshot
import Paddock.Proofs.Paths
import Paddock.Proofs.Store
import Paddock.Proofs.Commitment
import Paddock.Proofs.Listings
import Paddock.Proofs.History
import Paddock.Proofs.Movement
import Paddock.Proofs.Grants
import Paddock.Proofs.Privileges
import Paddock.Proofs.Outline
import Paddock.Proofs.Replay
import Paddock.Proofs.Refitting
import Paddock.Proofs.Independence
import Paddock.Proofs.Assembly
import Paddock.Proofs.Stats
import Paddock.Proofs.Queries
import Paddock.Proofs.Balances
import Paddock.Proofs.Requests
import Paddock.Proofs.Descriptions
import Paddock.Proofs.Accounts
import Paddock.Proofs.Positions
import Paddock.Proofs.Responses
