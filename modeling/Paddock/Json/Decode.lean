import Paddock.Json.Basic

/-!
Typed values as JSON. A record is written as an object; it is read from an object, whose unknown
members are passed over, or from an array of its fields in order.
-/
namespace Paddock.Json

class Encode (α : Type) where
  encode : α → Json

class Decode (α : Type) where
  decode? : Json → Option α

export Encode (encode)
export Decode (decode?)

def nat? (bound : Nat) : Json → Option Nat
  | .integer n => if 0 ≤ n ∧ n < bound then some n.toNat else none
  | _ => none

instance : Encode Json := ⟨id⟩

instance : Encode Bool := ⟨.bool⟩

instance : Decode Bool where
  decode?
    | .bool b => some b
    | _ => none

instance : Encode String := ⟨.string⟩

instance : Decode String where
  decode?
    | .string s => some s
    | _ => none

instance : Encode Nat := ⟨.nat⟩

instance : Encode UInt8 := ⟨fun n => .nat n.toNat⟩
instance : Encode UInt16 := ⟨fun n => .nat n.toNat⟩
instance : Encode UInt64 := ⟨fun n => .nat n.toNat⟩

instance : Decode UInt8 := ⟨fun j => (nat? UInt8.size j).map UInt8.ofNat⟩
instance : Decode UInt16 := ⟨fun j => (nat? UInt16.size j).map UInt16.ofNat⟩
instance : Decode UInt64 := ⟨fun j => (nat? UInt64.size j).map UInt64.ofNat⟩

instance {α : Type} [Encode α] : Encode (Option α) where
  encode
    | some a => encode a
    | none => .null

instance {α : Type} [Decode α] : Decode (Option α) where
  decode?
    | .null => some none
    | j => (decode? j).map some

instance {α : Type} [Encode α] : Encode (List α) :=
  ⟨fun items => .array (items.map encode)⟩

instance {α : Type} [Decode α] : Decode (List α) where
  decode?
    | .array items => items.mapM decode?
    | _ => none

/-- The value of the one member with one of these names; two such members are refused. -/
def field? (members : List (Name × Json)) (names : List String) : Option (Option Json) :=
  match members.filter fun m => names.contains m.1.text with
  | [] => some none
  | [m] => some (some m.2)
  | _ => none

/-- The fields of a record, each known by any of its names. All of an array's places are needed. -/
def fields? (names : List (List String)) : Json → Option (List (Option Json))
  | .object members => names.mapM (field? members)
  | .array items => if items.length = names.length then some (items.map some) else none
  | _ => none

/-- As `fields?`, for records whose fields all have defaults: an array may stop early. -/
def partialFields? (names : List (List String)) : Json → Option (List (Option Json))
  | .array items =>
    if items.length ≤ names.length then
      some (items.map some ++ List.replicate (names.length - items.length) none)
    else none
  | j => fields? names j

/-- A field that must be given. -/
def required {α : Type} [Decode α] (value : Option Json) : Option α :=
  value.bind decode?

/-- A field that is null when it is not given. -/
def orNull {α : Type} [Decode α] (value : Option Json) : Option (Option α) :=
  match value with
  | none => some none
  | some j => decode? j

/-- A field that has a default when it is not given. -/
def withDefault {α : Type} [Decode α] (default : α) (value : Option Json) : Option α :=
  match value with
  | none => some default
  | some j => decode? j

/-- One of several named alternatives that carry nothing: its name, or an object with that one
member holding null. -/
def bareName? : Json → Option String
  | .string name => some name
  | .object [(name, .null)] => some name.text
  | _ => none

end Paddock.Json
