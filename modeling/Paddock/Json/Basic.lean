/-!
JSON values. Members of an object keep their order and may repeat a name.
-/
namespace Paddock

/-- The name of a member, and whether its text gives a character by number. -/
structure Json.Name where
  text : String
  escaped : Bool

/-- `decimal` is a number with a fraction, an exponent or a negative zero, which no record holds.
`unreadable` is well-formed text that stands for no value: a string or a name with half of a
surrogate pair, a number beyond the range of double precision, a container too deep inside others. -/
inductive Json where
  | null
  | bool (value : Bool)
  | integer (value : Int)
  | decimal
  | string (value : String)
  | array (items : List Json)
  | object (members : List (Json.Name × Json))
  | unreadable

namespace Json

instance : Inhabited Json := ⟨null⟩

instance : Coe String Name := ⟨fun text => ⟨text, false⟩⟩

/-- A natural number as a value. -/
def nat (n : Nat) : Json := integer n

/-- The first member of that name. -/
def member? (name : String) : Json → Option Json
  | object members => (members.find? (·.1.text == name)).map Prod.snd
  | _ => none

mutual

/-- Whether every part of the value stands for something. -/
def isReadable : Json → Bool
  | unreadable => false
  | array items => itemsReadable items
  | object members => membersReadable members
  | _ => true

def itemsReadable : List Json → Bool
  | [] => true
  | item :: items => item.isReadable && itemsReadable items

def membersReadable : List (Name × Json) → Bool
  | [] => true
  | (_, value) :: members => value.isReadable && membersReadable members

end

end Json

end Paddock
