import Paddock.Account
import Paddock.Ids

/-!
Tables as JSON objects, their keys as names of members, and sets of keys as arrays.
-/
namespace Paddock.Json

class KeyText (κ : Type) where
  keyText : κ → String
  ofKeyText? : Name → Option κ

export KeyText (keyText ofKeyText?)

def digitValue? (c : Char) : Option Nat :=
  if '0' ≤ c ∧ c ≤ '9' then some (c.toNat - 48) else none

/-- Reads digits without a sign and without a zero in front. -/
def plainNumber? (text : List Char) : Option Nat :=
  match text with
  | [] => none
  | ['0'] => some 0
  | '0' :: _ => none
  | digits => digits.foldlM (fun n c => (digitValue? c).map (n * 10 + ·)) 0

def uint64Text (n : UInt64) : String :=
  String.ofList (Nat.toDigits 10 n.toNat)

def ofUInt64Text? (text : String) : Option UInt64 := do
  let n ← plainNumber? text.toList
  if n < UInt64.size then some (UInt64.ofNat n) else none

/-- A number among keys is written in plain digits. -/
def ofNumberName? (name : Name) : Option UInt64 :=
  if name.escaped then none else ofUInt64Text? name.text

instance : KeyText PartId :=
  ⟨fun id => uint64Text id.number, fun name => (ofNumberName? name).map PartId.mk⟩

instance : KeyText CarId :=
  ⟨fun id => uint64Text id.number, fun name => (ofNumberName? name).map CarId.mk⟩

instance : KeyText AccountId := ⟨AccountId.toHex, fun name => (AccountId.parse name.text).toOption⟩

variable {κ α : Type} [Key κ]

instance [KeyText κ] [Encode α] : Encode (Table κ α) :=
  ⟨fun t => .object (t.entries.map fun e => (keyText e.1, encode e.2))⟩

def keyed? [KeyText κ] [Decode α] (m : Name × Json) : Option (κ × α) := do
  return (← ofKeyText? m.1, ← decode? m.2)

/-- Of two members with one key the later one counts. -/
instance [KeyText κ] [Decode α] : Decode (Table κ α) where
  decode?
    | .object members => (members.mapM keyed?).map Table.ofList
    | _ => none

def encodeSet [Encode κ] (s : KeySet κ) : Json := encode s.keys

def decodeSet? [Decode κ] (j : Json) : Option (KeySet κ) := do
  let keys : List κ ← decode? j
  return Table.ofList (keys.map (·, ()))

/-- A set of keys is an array of them. -/
instance (priority := high) keySetEncode [Encode κ] : Encode (KeySet κ) := ⟨encodeSet⟩

instance (priority := high) keySetDecode [Decode κ] : Decode (KeySet κ) := ⟨decodeSet?⟩

end Paddock.Json
