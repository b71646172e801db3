import Paddock.Market.Basic

/-!
The terms on which a ledger starts. Prices and the fee can be changed later, the bounds cannot.
-/
namespace Paddock

structure LedgerConfig where
  mintPrice : UInt64
  repairPrice : UInt64
  repairAmount : UInt8
  maxCondition : UInt8
  maxStat : UInt8
  feeBps : UInt16
deriving DecidableEq, Repr

inductive ConfigFault where
  | noCondition
  | feeTooHigh (bps : UInt16)
deriving DecidableEq, Repr

def ConfigFault.message : ConfigFault → String
  | noCondition => "max_condition must be positive"
  | feeTooHigh bps => s!"protocol_fee_bps {bps.toNat} exceeds {maxFeeBps.toNat}"

namespace LedgerConfig

def default : LedgerConfig where
  mintPrice := 1000000
  repairPrice := 100000
  repairAmount := 100
  maxCondition := 100
  maxStat := 10
  feeBps := 0

def validate (c : LedgerConfig) : Except ConfigFault Unit :=
  if c.maxCondition = 0 then .error .noCondition
  else if maxFeeBps < c.feeBps then .error (.feeTooHigh c.feeBps)
  else .ok ()

def fieldNames : List (List String) := [
  ["mint_price"], ["repair_price"], ["repair_amount"], ["max_condition"], ["max_stat"],
  ["protocol_fee_bps"]]

end LedgerConfig

open Json

instance : Encode LedgerConfig where
  encode c := .object [
    ("mint_price", encode c.mintPrice),
    ("repair_price", encode c.repairPrice),
    ("repair_amount", encode c.repairAmount),
    ("max_condition", encode c.maxCondition),
    ("max_stat", encode c.maxStat),
    ("protocol_fee_bps", encode c.feeBps)]

/-- What is not given has its default. -/
instance : Decode LedgerConfig where
  decode? j :=
    match partialFields? LedgerConfig.fieldNames j with
    | some [mintPrice, repairPrice, repairAmount, maxCondition, maxStat, feeBps] => do
      let mintPrice ← withDefault LedgerConfig.default.mintPrice mintPrice
      let repairPrice ← withDefault LedgerConfig.default.repairPrice repairPrice
      let repairAmount ← withDefault LedgerConfig.default.repairAmount repairAmount
      let maxCondition ← withDefault LedgerConfig.default.maxCondition maxCondition
      let maxStat ← withDefault LedgerConfig.default.maxStat maxStat
      let feeBps ← withDefault LedgerConfig.default.feeBps feeBps
      return ⟨mintPrice, repairPrice, repairAmount, maxCondition, maxStat, feeBps⟩
    | _ => none

end Paddock
