import Paddock.Json.Basic

/-!
Values as text. Layouts differ in white space alone.
-/
namespace Paddock.Json

/-- What stands before each item at a depth, and after each colon. -/
structure Layout where
  lineBreak : Nat → List Char
  afterColon : List Char

/-- No white space at all. -/
def Layout.compact : Layout := ⟨fun _ => [], []⟩

/-- Each item on a line of its own, two spaces deeper than its container. -/
def Layout.indented : Layout := ⟨fun depth => '\n' :: List.replicate (2 * depth) ' ', [' ']⟩

def hexDigit (n : Nat) : Char :=
  if n < 10 then Char.ofNat (48 + n) else Char.ofNat (87 + n)

/-- Quotes, backslashes and control characters are escaped, all else stands for itself. -/
def escape (c : Char) : List Char :=
  match c with
  | '"' => ['\\', '"']
  | '\\' => ['\\', '\\']
  | '\x08' => ['\\', 'b']
  | '\x0c' => ['\\', 'f']
  | '\n' => ['\\', 'n']
  | '\r' => ['\\', 'r']
  | '\t' => ['\\', 't']
  | c =>
    if c.toNat < 0x20 then ['\\', 'u', '0', '0', hexDigit (c.toNat / 16), hexDigit (c.toNat % 16)]
    else [c]

def quoted (s : String) : List Char :=
  '"' :: s.toList.flatMap escape ++ ['"']

def integerText (n : Int) : List Char :=
  match n with
  | .ofNat n => Nat.toDigits 10 n
  | .negSucc n => '-' :: Nat.toDigits 10 (n + 1)

variable (layout : Layout)

mutual

def print (depth : Nat) : Json → List Char
  | .null | .decimal | .unreadable => ['n', 'u', 'l', 'l']
  | .bool true => ['t', 'r', 'u', 'e']
  | .bool false => ['f', 'a', 'l', 's', 'e']
  | .integer n => integerText n
  | .string s => quoted s
  | .array [] => ['[', ']']
  | .array (item :: items) =>
    '[' :: layout.lineBreak (depth + 1) ++ print (depth + 1) item ++ printItems (depth + 1) items ++
      layout.lineBreak depth ++ [']']
  | .object [] => ['{', '}']
  | .object ((name, value) :: members) =>
    '{' :: layout.lineBreak (depth + 1) ++ quoted name.text ++ ':' :: layout.afterColon ++
      print (depth + 1) value ++ printMembers (depth + 1) members ++ layout.lineBreak depth ++ ['}']

def printItems (depth : Nat) : List Json → List Char
  | [] => []
  | item :: items => ',' :: layout.lineBreak depth ++ print depth item ++ printItems depth items

def printMembers (depth : Nat) : List (Name × Json) → List Char
  | [] => []
  | (name, value) :: members =>
    ',' :: layout.lineBreak depth ++ quoted name.text ++ ':' :: layout.afterColon ++
      print depth value ++ printMembers depth members

end

def compact (value : Json) : String :=
  String.ofList (print .compact 0 value)

def indented (value : Json) : String :=
  String.ofList (print .indented 0 value)

end Paddock.Json
