import Paddock.Decimal
import Paddock.Json.Basic

/-!
The tokens of JSON text. `Token.scan` is a machine that takes one character at a time, so scanning
`s ++ t` is scanning `s` and going on with `t`.
-/
namespace Paddock.Json

inductive Token where
  | openArray
  | closeArray
  | openObject
  | closeObject
  | colon
  | comma
  | null
  | bool (value : Bool)
  | integer (value : Int)
  | decimal
  | outOfRange
  | string (value : String) (escaped : Bool)
  | brokenString
deriving DecidableEq, Repr

/-- A string is made of characters and of escaped sixteen-bit units. -/
inductive Piece where
  | plain (c : Char)
  | unit (value : Nat)
deriving DecidableEq, Repr

/-- Two units that are the halves of a pair make one character; a lone half makes none. -/
def assemble : List Piece → Option (List Char)
  | [] => some []
  | .plain c :: rest => (assemble rest).map (c :: ·)
  | .unit high :: .unit low :: rest =>
    if 0xD800 ≤ high ∧ high < 0xDC00 then
      if 0xDC00 ≤ low ∧ low < 0xE000 then
        (assemble rest).map (Char.ofNat (0x10000 + (high - 0xD800) * 0x400 + (low - 0xDC00)) :: ·)
      else none
    else if 0xDC00 ≤ high ∧ high < 0xE000 then none
    else (assemble (.unit low :: rest)).map (Char.ofNat high :: ·)
  | .unit value :: rest =>
    if 0xD800 ≤ value ∧ value < 0xE000 then none else (assemble rest).map (Char.ofNat value :: ·)

def Piece.isUnit : Piece → Bool
  | .unit _ => true
  | .plain _ => false

def Token.ofPieces (pieces : List Piece) : Token :=
  match assemble pieces with
  | some chars => .string (String.ofList chars) (pieces.any Piece.isUnit)
  | none => .brokenString

/-- How much of a number has been read: its sign, a leading zero, whole digits, the point, digits
after the point, the exponent mark, the exponent's sign, the exponent's digits. -/
inductive Phase where
  | sign
  | zero
  | whole
  | point
  | fraction
  | mark
  | markSign
  | exponent
deriving DecidableEq, Repr

/-- A number as far as it has been read: all digits up to the exponent, how many of them stand
behind the point, and the digits of the exponent. -/
structure Number where
  negative : Bool
  digits : Nat
  places : Nat
  shrinks : Bool
  exponent : Nat
deriving DecidableEq, Repr

namespace Number

def start (negative : Bool) (digits : Nat) : Number := ⟨negative, digits, 0, false, 0⟩

def toDecimal (n : Number) : Decimal :=
  ⟨n.digits, (if n.shrinks then -(n.exponent : Int) else n.exponent) - n.places⟩

/-- A number with these digits, as far as it is within range. -/
def within (n : Number) (token : Token) : Token :=
  if n.toDecimal.isBeyondProduct then .outOfRange else token

/-- The token of a number that ends here, if it may end here. -/
def token? (n : Number) : Phase → Option Token
  | .zero | .whole =>
    if n.negative then
      if n.digits = 0 then some .decimal else some (n.within (.integer (-(n.digits : Int))))
    else some (n.within (.integer n.digits))
  | .fraction | .exponent => some (n.within .decimal)
  | _ => none

/-- One more digit. -/
def push (n : Number) (phase : Phase) (d : Nat) : Number :=
  match phase with
  | .sign | .zero | .whole => { n with digits := n.digits * 10 + d }
  | .point | .fraction => { n with digits := n.digits * 10 + d, places := n.places + 1 }
  | .mark | .markSign | .exponent => { n with exponent := n.exponent * 10 + d }

end Number

/-- Where the scanner stands. Pieces of a string are kept last first. -/
inductive Mode where
  | between
  | word (rest : List Char) (token : Token)
  | number (phase : Phase) (read : Number)
  | string (pieces : List Piece)
  | escape (pieces : List Piece)
  | hex (pieces : List Piece) (digits : Nat) (value : Nat)
deriving DecidableEq, Repr

/-- Tokens are kept last first. -/
structure Scanner where
  tokens : List Token
  mode : Mode
deriving DecidableEq, Repr

namespace Scanner

def digit? (c : Char) : Option Nat :=
  if '0' ≤ c ∧ c ≤ '9' then some (c.toNat - 48) else none

def hexDigit? (c : Char) : Option Nat :=
  if '0' ≤ c ∧ c ≤ '9' then some (c.toNat - 48)
  else if 'a' ≤ c ∧ c ≤ 'f' then some (c.toNat - 87)
  else if 'A' ≤ c ∧ c ≤ 'F' then some (c.toNat - 55)
  else none

def emit (s : Scanner) (token : Token) : Scanner :=
  ⟨token :: s.tokens, .between⟩

/-- The character that a one-letter escape stands for. -/
def escaped? (c : Char) : Option Char :=
  match c with
  | '"' => some '"'
  | '\\' => some '\\'
  | '/' => some '/'
  | 'b' => some '\x08'
  | 'f' => some '\x0c'
  | 'n' => some '\n'
  | 'r' => some '\r'
  | 't' => some '\t'
  | _ => none

/-- A character outside every token. -/
def start (s : Scanner) (c : Char) : Option Scanner :=
  match c with
  | ' ' | '\n' | '\t' | '\r' => some { s with mode := .between }
  | '[' => some (s.emit .openArray)
  | ']' => some (s.emit .closeArray)
  | '{' => some (s.emit .openObject)
  | '}' => some (s.emit .closeObject)
  | ':' => some (s.emit .colon)
  | ',' => some (s.emit .comma)
  | '"' => some { s with mode := .string [] }
  | 'n' => some { s with mode := .word ['u', 'l', 'l'] .null }
  | 't' => some { s with mode := .word ['r', 'u', 'e'] (.bool true) }
  | 'f' => some { s with mode := .word ['a', 'l', 's', 'e'] (.bool false) }
  | '-' => some { s with mode := .number .sign (.start true 0) }
  | '0' => some { s with mode := .number .zero (.start false 0) }
  | _ => (digit? c).map fun d => { s with mode := .number .whole (.start false d) }

/-- A character that ends a number is read again outside it. -/
def endNumber (s : Scanner) (phase : Phase) (n : Number) (c : Char) : Option Scanner := do
  let token ← n.token? phase
  (s.emit token).start c

def number (s : Scanner) (phase : Phase) (n : Number) (c : Char) : Option Scanner :=
  match phase, digit? c with
  | .sign, some d => some { s with mode := .number (if d = 0 then .zero else .whole) (n.push .sign d) }
  | .zero, some _ => none
  | .whole, some d => some { s with mode := .number .whole (n.push .whole d) }
  | .point, some d | .fraction, some d =>
    some { s with mode := .number .fraction (n.push .fraction d) }
  | .mark, some d | .markSign, some d | .exponent, some d =>
    some { s with mode := .number .exponent (n.push .exponent d) }
  | _, none =>
    match phase, c with
    | .zero, '.' | .whole, '.' => some { s with mode := .number .point n }
    | .zero, 'e' | .zero, 'E' | .whole, 'e' | .whole, 'E' | .fraction, 'e' | .fraction, 'E' =>
      some { s with mode := .number .mark n }
    | .mark, '+' => some { s with mode := .number .markSign n }
    | .mark, '-' => some { s with mode := .number .markSign { n with shrinks := true } }
    | _, _ => s.endNumber phase n c

def step (s : Scanner) (c : Char) : Option Scanner :=
  match s.mode with
  | .between => s.start c
  | .word [] _ => none
  | .word [last] token => if c = last then some (s.emit token) else none
  | .word (next :: rest) token => if c = next then some { s with mode := .word rest token } else none
  | .number phase n => s.number phase n c
  | .string pieces =>
    if c = '"' then some (s.emit (.ofPieces pieces.reverse))
    else if c = '\\' then some { s with mode := .escape pieces }
    else if c.toNat < 0x20 then none
    else some { s with mode := .string (.plain c :: pieces) }
  | .escape pieces =>
    if c = 'u' then some { s with mode := .hex pieces 0 0 }
    else (escaped? c).map fun e => { s with mode := .string (.plain e :: pieces) }
  | .hex pieces digits value =>
    (hexDigit? c).map fun d =>
      if digits = 3 then { s with mode := .string (.unit (value * 16 + d) :: pieces) }
      else { s with mode := .hex pieces (digits + 1) (value * 16 + d) }

/-- The tokens read, in order, if the text may end here. -/
def finish (s : Scanner) : Option (List Token) :=
  match s.mode with
  | .between => some s.tokens.reverse
  | .number phase n => do
    let token ← n.token? phase
    return (token :: s.tokens).reverse
  | _ => none

end Scanner

def Token.scan (text : List Char) : Option (List Token) := do
  let s ← text.foldlM Scanner.step ⟨[], .between⟩
  s.finish

end Paddock.Json
