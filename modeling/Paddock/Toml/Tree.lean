import Paddock.Json.Basic

/-!
Trees of tables, grown by the statements of a document. Each table remembers how it came to be,
which decides how it may still grow.
-/
namespace Paddock.Toml

/-- `implied` by the header of a table inside it, `dotted` by a key inside it, or `declared` by a
header of its own. -/
inductive Mark where
  | implied
  | dotted
  | declared
deriving DecidableEq, Repr

inductive Node where
  | value (json : Json)
  | table (mark : Mark) (members : List (String × Node))
  | tables (items : List (List (String × Node)))

abbrev Members := List (String × Node)

def find? (members : Members) (name : String) : Option Node :=
  (members.find? (·.1 == name)).map Prod.snd

/-- A name that is there keeps its place. -/
def put (members : Members) (name : String) (node : Node) : Members :=
  if members.any (·.1 == name) then members.map fun m => if m.1 == name then (name, node) else m
  else members ++ [(name, node)]

/-- A change to a table, which may be refused. -/
abbrev Growth := Mark × Members → Option (Mark × Members)

/-- Makes a change at the end of a path. Tables on the way are made where there are none, and of
several tables under one name the last is meant. A key with dots does not reach into a table that
has been declared. -/
def grow (made : Mark) (change : Growth) : List String → Growth
  | [], t => change t
  | name :: path, (mark, members) =>
    match find? members name with
    | none => do
      let (m, sub) ← grow made change path (made, [])
      return (mark, put members name (.table m sub))
    | some (.value _) => none
    | some (.tables items) => do
      let last ← items.getLast?
      let (_, sub) ← grow made change path (.declared, last)
      return (mark, put members name (.tables (items.dropLast ++ [sub])))
    | some (.table m sub) =>
      if made = .dotted ∧ m = .declared then none
      else do
        let (m, sub) ← grow made change path (m, sub)
        return (mark, put members name (.table m sub))

/-- Adds a value under a new name. Tables made by keys grow by keys alone. -/
def addValue (isDotted : Bool) (name : String) (json : Json) : Growth
  | (mark, members) =>
    if (mark = .dotted) ≠ isDotted ∨ (find? members name).isSome then none
    else some (mark, members ++ [(name, .value json)])

/-- Adds a value under a key. -/
def addPair (key : List String) (json : Json) (t : Mark × Members) : Option (Mark × Members) := do
  let name ← key.getLast?
  let path := key.dropLast
  grow .dotted (addValue (!path.isEmpty) name json) path t

def declare (name : String) : Growth
  | (mark, members) =>
    match find? members name with
    | none => some (mark, members ++ [(name, .table .declared [])])
    | some (.table .implied sub) => some (mark, put members name (.table .declared sub))
    | _ => none

def declareOneMore (name : String) : Growth
  | (mark, members) =>
    match find? members name with
    | none => some (mark, members ++ [(name, .tables [[]])])
    | some (.tables items) => some (mark, put members name (.tables (items ++ [[]])))
    | _ => none

mutual

def Node.toJson : Node → Json
  | .value json => json
  | .table _ members => .object (membersToJson members)
  | .tables items => .array (itemsToJson items)

def membersToJson : List (String × Node) → List (Json.Name × Json)
  | [] => []
  | (name, node) :: rest => (name, node.toJson) :: membersToJson rest

def itemsToJson : List (List (String × Node)) → List Json
  | [] => []
  | item :: rest => .object (membersToJson item) :: itemsToJson rest

end

/-- A table given between braces. -/
def inlineTable? (pairs : List (List String × Json)) : Option Json := do
  let (_, members) ← pairs.foldlM (fun t p => addPair p.1 p.2 t) (.declared, [])
  return .object (membersToJson members)

/-- What one line of a document says. -/
inductive Statement where
  | pair (key : List String) (json : Json)
  | header (key : List String)
  | oneMore (key : List String)

/-- The table that pairs go to, by its path, and the whole tree. -/
structure Document where
  path : List String
  tree : Mark × Members

def Document.empty : Document := ⟨[], .declared, []⟩

def Document.add (d : Document) : Statement → Option Document
  | .pair key json => do
    let tree ← grow .implied (addPair key json) d.path d.tree
    return { d with tree }
  | .header key => do
    let tree ← grow .implied (declare (← key.getLast?)) key.dropLast d.tree
    return ⟨key, tree⟩
  | .oneMore key => do
    let tree ← grow .implied (declareOneMore (← key.getLast?)) key.dropLast d.tree
    return ⟨key, tree⟩

def Document.toJson (d : Document) : Json := .object (membersToJson d.tree.2)

end Paddock.Toml
