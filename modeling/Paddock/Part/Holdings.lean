import Paddock.Ids
import Paddock.Part.Kind
import Paddock.TokenIndex

/-!
What one owner holds: all parts, the parts of each kind, those on a car and those that are not.
-/
namespace Paddock

structure Holdings where
  all : TokenIndex PartId
  byType : PerType (TokenIndex PartId)
  equipped : TokenIndex PartId
  unequipped : TokenIndex PartId
deriving DecidableEq

namespace Holdings

def empty : Holdings := ⟨.empty, .replicate .empty, .empty, .empty⟩

def add (h : Holdings) (id : PartId) (kind : PartType) (equipped : Bool) : Holdings :=
  { all := h.all.insert id
    byType := h.byType.set kind ((h.byType.get kind).insert id)
    equipped := if equipped then h.equipped.insert id else h.equipped
    unequipped := if equipped then h.unequipped else h.unequipped.insert id }

def remove (h : Holdings) (id : PartId) (kind : PartType) : Holdings :=
  { all := h.all.remove id
    byType := h.byType.set kind ((h.byType.get kind).remove id)
    equipped := h.equipped.remove id
    unequipped := h.unequipped.remove id }

/-- Moves a part between those on a car and those that are not. -/
def mark (h : Holdings) (id : PartId) (equipped : Bool) : Holdings :=
  if equipped then
    { h with unequipped := h.unequipped.remove id, equipped := h.equipped.insert id }
  else
    { h with equipped := h.equipped.remove id, unequipped := h.unequipped.insert id }

def isEmpty (h : Holdings) : Bool := h.all.isEmpty

open Json

instance : Encode Holdings where
  encode h := .object [
    ("all", encode h.all),
    ("by_type", encode h.byType),
    ("equipped", encode h.equipped),
    ("unequipped", encode h.unequipped)]

instance : Decode Holdings where
  decode? j :=
    match fields? [["all"], ["by_type"], ["equipped"], ["unequipped"]] j with
    | some [all, byType, equipped, unequipped] => do
      let all ← required all
      let byType ← required byType
      let equipped ← required equipped
      let unequipped ← required unequipped
      return ⟨all, byType, equipped, unequipped⟩
    | _ => none

end Holdings

end Paddock
