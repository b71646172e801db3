import Paddock.Json.Basic
import Paddock.Text.Numeral

/-!
Changing one place of a value. A place is named by the members and positions that lead to it.
-/
namespace Paddock.Json

/-- What is done at the place: it gets a value, or it goes. -/
inductive Edit where
  | put (value : Json)
  | remove

def putMember (name : String) (value : Json) (members : List (Name × Json)) :
    List (Name × Json) :=
  if members.any (·.1.text == name) then
    members.map fun m => if m.1.text == name then (name, value) else m
  else members.concat (name, value)

/-- The position that a step names. -/
def position? (step : String) : Option Nat :=
  (Text.readNumeral UInt64.size step.toList).toOption

/-- At the last step: a member is set, added or dropped, an item is replaced or dropped, and `-`
stands for the place after the last item. Dropping a member that is not there changes nothing. -/
def Edit.apply (edit : Edit) (step : String) : Json → Option Json
  | .object members =>
    match edit with
    | .put value => some (.object (putMember step value members))
    | .remove => some (.object (members.filter (·.1.text != step)))
  | .array items =>
    match edit, position? step with
    | .put value, none => if step = "-" then some (.array (items ++ [value])) else none
    | .put value, some i => if i < items.length then some (.array (items.set i value)) else none
    | .remove, some i => if i < items.length then some (.array (items.eraseIdx i)) else none
    | .remove, none => none
  | _ => none

def Edit.at (edit : Edit) : List String → Json → Option Json
  | [], _ => none
  | [last], j => edit.apply last j
  | step :: path, .object members => do
    let value ← (Json.object members).member? step
    let changed ← edit.at path value
    return .object (putMember step changed members)
  | step :: path, .array items => do
    let i ← position? step
    let value ← items[i]?
    let changed ← edit.at path value
    return .array (items.set i changed)
  | _, _ => none

/-! ### Several edits -/

mutual

/-- The value as edits see it: an integer that does not fit into sixty-four bits is no longer whole,
and how a name was written is forgotten. -/
def narrowed : Json → Json
  | .integer n => if -9223372036854775808 ≤ n ∧ n < UInt64.size then .integer n else .decimal
  | .array items => .array (narrowedItems items)
  | .object members => .object (narrowedMembers members)
  | j => j

def narrowedItems : List Json → List Json
  | [] => []
  | item :: items => narrowed item :: narrowedItems items

def narrowedMembers : List (Name × Json) → List (Name × Json)
  | [] => []
  | (name, value) :: members => (name.text, narrowed value) :: narrowedMembers members

end

def Edit.narrowed : Edit → Edit
  | .put value => .put value.narrowed
  | .remove => .remove

/-- Makes edits one after the other. A value that is not edited at all is not looked at. -/
def edited (edits : List (List String × Edit)) (j : Json) : Option Json :=
  if edits.isEmpty then some j
  else edits.foldlM (fun j e => e.2.narrowed.at e.1 j) j.narrowed

end Paddock.Json
