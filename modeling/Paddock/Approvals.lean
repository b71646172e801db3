import Paddock.Json.Keyed

/-!
Who may move a token: its owner, the one account approved for that token, and any operator approved
for all tokens of the owner. A token's approval ends when the token changes hands, an operator's
does not.
-/
namespace Paddock

structure Approvals (κ : Type) [Key κ] where
  token : Table κ AccountId
  operators : Table AccountId (KeySet AccountId)
deriving DecidableEq

namespace Approvals

variable {κ : Type} [Key κ]

def empty : Approvals κ := ⟨Table.empty, Table.empty⟩

/-- Sets or clears the account approved for a token. -/
def approve (a : Approvals κ) (id : κ) : Option AccountId → Approvals κ
  | some account => { a with token := a.token.insert id account }
  | none => { a with token := a.token.erase id }

def approved (a : Approvals κ) (id : κ) : Option AccountId := a.token.get? id

def operatorsOf (a : Approvals κ) (owner : AccountId) : KeySet AccountId :=
  (a.operators.get? owner).getD Table.empty

/-- An owner whose last operator goes has no entry left. -/
def setOperator (a : Approvals κ) (owner operator : AccountId) (approved : Bool) : Approvals κ :=
  if approved then
    { a with operators := a.operators.insert owner ((a.operatorsOf owner).insert operator ()) }
  else
    match a.operators.get? owner with
    | none => a
    | some set =>
      let rest := set.erase operator
      if rest.isEmpty then { a with operators := a.operators.erase owner }
      else { a with operators := a.operators.insert owner rest }

def isOperator (a : Approvals κ) (owner operator : AccountId) : Bool :=
  (a.operatorsOf owner).contains operator

/-- Whether `account` may move a token that `owner` holds. -/
def isAuthorized (a : Approvals κ) (owner : AccountId) (id : κ) (account : AccountId) : Bool :=
  owner == account || a.approved id == some account || a.isOperator owner account

def clear (a : Approvals κ) (id : κ) : Approvals κ := a.approve id none

open Json

instance [KeyText κ] : Encode (Approvals κ) where
  encode a := .object [("token", encode a.token), ("operators", encode a.operators)]

instance [KeyText κ] : Decode (Approvals κ) where
  decode? j :=
    match fields? [["token"], ["operators"]] j with
    | some [token, operators] => do
      let token ← required token
      let operators ← required operators
      return ⟨token, operators⟩
    | _ => none

end Approvals

end Paddock
