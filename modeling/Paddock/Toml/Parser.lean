import Paddock.Toml.Lexeme
import Paddock.Toml.Tree

/-!
TOML documents as values. Tables become objects.
-/
namespace Paddock.Toml

mutual

/-- A value that may hold others only so far. -/
def value : Nat → Nat → Reader Json
  | _, 0, _ => none
  | room, fuel + 1, text =>
    match text, room with
    | '[' :: _, 0 | '\x7b' :: _, 0 => none
    | '[' :: rest, room + 1 =>
      (items room fuel (skipVoid fuel rest)).map fun (js, rest) => (.array js, rest)
    | '\x7b' :: rest, room + 1 =>
      match skipBlanks rest with
      | '\x7d' :: rest => some (.object [], rest)
      | rest => do
        let (ps, rest) ← pairs room fuel rest
        let table ← inlineTable? ps
        return (table, rest)
    | '"' :: _, _ | '\'' :: _, _ => (string (fuel + 1) text).map fun (s, rest) => (.string s, rest)
    | text, _ =>
      let (first, rest) := word text
      (wordValue? first).map (·, rest)

/-- The items of an array, where the text stands at an item or at the end. -/
def items : Nat → Nat → Reader (List Json)
  | _, 0, _ => none
  | _, _ + 1, ']' :: rest => some ([], rest)
  | room, fuel + 1, text => do
    let (first, rest) ← value room fuel text
    match skipVoid fuel rest with
    | ',' :: rest => do
      let (others, rest) ← items room fuel (skipVoid fuel rest)
      return (first :: others, rest)
    | ']' :: rest => return ([first], rest)
    | _ => none

/-- The pairs between braces. -/
def pairs : Nat → Nat → Reader (List (List String × Json))
  | _, 0, _ => none
  | room, fuel + 1, text => do
    let (name, rest) ← key fuel text
    let '=' :: rest := rest | none
    let (json, rest) ← value room fuel (skipBlanks rest)
    match skipBlanks rest with
    | ',' :: rest => do
      let (others, rest) ← pairs room fuel rest
      return ((name, json) :: others, rest)
    | '\x7d' :: rest => return ([(name, json)], rest)
    | _ => none

end

def statement (fuel : Nat) : Reader Statement
  | '[' :: '[' :: rest => do
    let (name, rest) ← key fuel rest
    match rest with
    | ']' :: ']' :: rest => return (.oneMore name, rest)
    | _ => none
  | '[' :: rest => do
    let (name, rest) ← key fuel rest
    match rest with
    | ']' :: rest => return (.header name, rest)
    | _ => none
  | text => do
    let (name, rest) ← key fuel text
    let '=' :: rest := rest | none
    let (json, rest) ← value depthLimit fuel (skipBlanks rest)
    return (.pair name json, rest)

/-- Reads statements line by line. -/
def statements (fuel : Nat) : Nat → List Char → Option (List Statement)
  | 0, _ => none
  | lines + 1, text =>
    match skipVoid fuel text with
    | [] => some []
    | text => do
      let (first, rest) ← statement fuel text
      let rest ← lineEnd? rest
      let others ← statements fuel lines rest
      return first :: others

def skipMark : List Char → List Char
  | '\ufeff' :: rest => rest
  | text => text

/-- The value of a whole document. -/
def parse (text : String) : Option Json := do
  let text := skipMark text.toList
  let fuel := text.length + 2
  let document ← (← statements fuel fuel text).foldlM Document.add .empty
  return document.toJson

end Paddock.Toml
