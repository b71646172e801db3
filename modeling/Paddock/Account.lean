import Paddock.Digest
import Paddock.Json.Decode
import Paddock.Table
import Paddock.Text.Blank
import Paddock.Text.Quoted

/-!
Accounts. An account is known by a digest of what it stands for: a label, a public key or a service
of the ledger itself. Whether a text names an account by its digest or by its label is decided by
`AccountId.named`.
-/
namespace Paddock

structure AccountId where
  digest : Digest
deriving DecidableEq, Repr

/-- What an account is derived from. -/
inductive AccountMaterial where
  | label (text : String)
  | publicKey (key : Digest)
  | service (name : String)
deriving DecidableEq, Repr

inductive AccountFault where
  | invalidHex (fault : Hex.Fault)
  | invalidLength (actual : Nat)
deriving DecidableEq, Repr

def Hex.Fault.message : Hex.Fault → String
  | oddLength => "Odd number of digits"
  | invalidByte byte position =>
    s!"Invalid character {Text.quotedChar (Char.ofNat byte.toNat)} at position {position}"

def AccountFault.message : AccountFault → String
  | invalidHex fault => s!"invalid hex string: {fault.message}"
  | invalidLength actual => s!"invalid byte length: expected 32, got {actual}"

/-- The bytes that are hashed: a mark of the scheme, the kind of material, the material. -/
def AccountMaterial.message : AccountMaterial → List UInt8
  | label text => utf8 "rush-account-v1:label:" ++ utf8 text
  | publicKey key => utf8 "rush-account-v1:pubkey:" ++ key.bytes
  | service name => utf8 "rush-account-v1:service:" ++ utf8 name

/-- The text without this beginning, if it has it. -/
def stripMark (mark text : List Char) : Option (List Char) :=
  if mark.isPrefixOf text then some (text.drop mark.length) else none

namespace AccountId

/-- Stands before the digits of an account. -/
def mark : List Char := ['a', 'c', 'c', 't', ':']

instance : Key AccountId where
  rank a := a.digest.rank
  rank_inj h := by
    rename_i a b
    cases a; cases b
    simpa using Digest.rank_inj h

def derive (hash : Hasher) (material : AccountMaterial) : AccountId :=
  ⟨hash material.message⟩

def ofLabel (hash : Hasher) (text : String) : AccountId :=
  derive hash (.label text)

def service (hash : Hasher) (name : String) : AccountId :=
  derive hash (.service name)

def toHex (a : AccountId) : String := a.digest.toHex

/-- The mark and the first eight digits. -/
def short (a : AccountId) : String :=
  String.ofList (mark ++ Hex.encode (a.digest.bytes.take 4))

instance : ToString AccountId := ⟨short⟩

/-- Reads sixty-four digits, which one mark may precede. -/
def parse (text : String) : Except AccountFault AccountId :=
  let digits := (stripMark mark text.toList).getD text.toList
  match Hex.decode (utf8 (String.ofList digits)) with
  | .error fault => .error (.invalidHex fault)
  | .ok bytes =>
    match Digest.ofBytes? bytes with
    | some digest => .ok ⟨digest⟩
    | none => .error (.invalidLength bytes.length)

instance : Json.Encode AccountId := ⟨fun a => .string a.toHex⟩

instance : Json.Decode AccountId where
  decode?
    | .string text => (parse text).toOption
    | _ => none

/-- Why a text names no account. -/
inductive NameFault where
  | empty
  | invalidId (text : String)
  | digits (fault : AccountFault)
deriving DecidableEq, Repr

def NameFault.message : NameFault → String
  | empty => "account must not be empty"
  | invalidId text => s!"invalid account id: {text}"
  | digits fault => fault.message

def isHexDigit (c : Char) : Bool :=
  ('0' ≤ c && c ≤ '9') || ('a' ≤ c && c ≤ 'f') || ('A' ≤ c && c ≤ 'F')

/-- An account as people name it, blanks around the name aside: by its digits, sixty-four bytes of them, or by
a label, which may not look like the start of marked digits. -/
def named (hash : Hasher) (text : String) : Except NameFault AccountId :=
  let name := Text.trim text.toList
  if name.isEmpty then .error .empty
  else
    let marked := stripMark mark name
    let digits := marked.getD name
    if (utf8 (String.ofList digits)).length = 64 ∧ digits.all isHexDigit then
      (parse (String.ofList digits)).mapError .digits
    else if marked.isSome then .error (.invalidId (String.ofList name))
    else .ok (ofLabel hash (String.ofList name))

end AccountId

end Paddock
