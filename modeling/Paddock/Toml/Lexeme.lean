import Paddock.Decimal
import Paddock.Json.Basic

/-!
The smallest pieces of TOML: blanks, line ends, strings, keys, and the words that stand for numbers,
truth values and dates. A reader takes a piece from the front of a text and gives back the rest.
-/
namespace Paddock.Toml

abbrev Reader (α : Type) := List Char → Option (α × List Char)

def isBlank (c : Char) : Bool := c == ' ' || c == '\t'

def skipBlanks (text : List Char) : List Char := text.dropWhile isBlank

/-- A character that may stand for itself within a line. -/
def isPlain (c : Char) : Bool := c == '\t' || (0x20 ≤ c.toNat && c.toNat != 0x7F)

def lineBreak? : List Char → Option (List Char)
  | '\n' :: rest => some rest
  | '\r' :: '\n' :: rest => some rest
  | _ => none

/-- Drops a comment up to the end of its line. -/
def skipComment : List Char → List Char
  | '#' :: rest => rest.dropWhile isPlain
  | text => text

/-- What follows the end of a line. -/
def lineEnd? (text : List Char) : Option (List Char) :=
  match skipComment (skipBlanks text) with
  | [] => some []
  | rest => lineBreak? rest

/-- Drops blanks, comments and line breaks. -/
def skipVoid : Nat → List Char → List Char
  | 0, text => text
  | fuel + 1, text =>
    let rest := skipComment (skipBlanks text)
    match lineBreak? rest with
    | some after => skipVoid fuel after
    | none => rest

/-- Drops blanks and line breaks. -/
def skipEmpty : List Char → List Char
  | [] => []
  | '\r' :: '\n' :: rest => skipEmpty rest
  | c :: rest => if isBlank c || c == '\n' then skipEmpty rest else c :: rest

/-! ### Strings -/

def hexValue? (c : Char) : Option Nat :=
  if '0' ≤ c ∧ c ≤ '9' then some (c.toNat - 48)
  else if 'a' ≤ c ∧ c ≤ 'f' then some (c.toNat - 87)
  else if 'A' ≤ c ∧ c ≤ 'F' then some (c.toNat - 55)
  else none

/-- The character whose number the digits spell. -/
def scalar? (digits : List Char) : Option Char := do
  let n ← digits.foldlM (fun n c => (hexValue? c).map (n * 16 + ·)) 0
  if n.isValidChar then some (Char.ofNat n) else none

def escaped? : Char → Option Char
  | 'b' => some '\x08'
  | 't' => some '\t'
  | 'n' => some '\n'
  | 'f' => some '\x0c'
  | 'r' => some '\r'
  | '"' => some '"'
  | '\\' => some '\\'
  | _ => none

/-- One character of a string with escapes. -/
def character : Reader Char
  | '\\' :: 'u' :: a :: b :: c :: d :: rest => (scalar? [a, b, c, d]).map (·, rest)
  | '\\' :: 'U' :: a :: b :: c :: d :: e :: f :: g :: h :: rest =>
    (scalar? [a, b, c, d, e, f, g, h]).map (·, rest)
  | '\\' :: c :: rest => (escaped? c).map (·, rest)
  | c :: rest => if isPlain c && c != '\\' then some (c, rest) else none
  | [] => none

/-- One character of a string without escapes. -/
def literalCharacter : Reader Char
  | c :: rest => if isPlain c then some (c, rest) else none
  | [] => none

/-- The rest of a string on one line. -/
def lineString (one : Reader Char) (quote : Char) : Nat → Reader (List Char)
  | 0, _ => none
  | _ + 1, [] => none
  | fuel + 1, c :: rest =>
    if c = quote then some ([], rest)
    else do
      let (first, rest) ← one (c :: rest)
      let (others, rest) ← lineString one quote fuel rest
      return (first :: others, rest)

/-- Three quotes end a string of several lines; up to two more in front of them belong to it. -/
def closing? (quote : Char) (text : List Char) : Option (List Char × List Char) :=
  let quotes := (text.takeWhile (· == quote)).length
  if quotes < 3 then none
  else
    let own := min (quotes - 3) 2
    some (List.replicate own quote, text.drop (own + 3))

/-- A backslash at the end of a line takes the break and all blanks and breaks after it away. -/
def continuation? : List Char → Option (List Char)
  | '\\' :: rest => (lineBreak? (skipBlanks rest)).map skipEmpty
  | _ => none

/-- The rest of a string of several lines. -/
def blockString (one : Reader Char) (quote : Char) (joins : Bool) : Nat → Reader (List Char)
  | 0, _ => none
  | fuel + 1, text =>
    match closing? quote text with
    | some closed => some closed
    | none =>
      match lineBreak? text with
      | some rest => do
        let (others, rest) ← blockString one quote joins fuel rest
        return ('\n' :: others, rest)
      | none =>
        match if joins then continuation? text else none with
        | some rest => blockString one quote joins fuel rest
        | none => do
          let (first, rest) ← one text
          let (others, rest) ← blockString one quote joins fuel rest
          return (first :: others, rest)

/-- A string of several lines begins after the break that may follow its quotes. -/
def skipFirstBreak (text : List Char) : List Char := (lineBreak? text).getD text

/-- A string of any kind. -/
def string (fuel : Nat) : Reader String
  | '"' :: '"' :: '"' :: rest => do
    let (text, rest) ← blockString character '"' true fuel (skipFirstBreak rest)
    return (String.ofList text, rest)
  | '\'' :: '\'' :: '\'' :: rest => do
    let (text, rest) ← blockString literalCharacter '\'' false fuel (skipFirstBreak rest)
    return (String.ofList text, rest)
  | '"' :: rest => do
    let (text, rest) ← lineString character '"' fuel rest
    return (String.ofList text, rest)
  | '\'' :: rest => do
    let (text, rest) ← lineString literalCharacter '\'' fuel rest
    return (String.ofList text, rest)
  | _ => none

/-! ### Keys -/

def isBare (c : Char) : Bool := c.isAlphanum || c == '_' || c == '-'

def simpleKey (fuel : Nat) : Reader String
  | '"' :: rest => do
    let (text, rest) ← lineString character '"' fuel rest
    return (String.ofList text, rest)
  | '\'' :: rest => do
    let (text, rest) ← lineString literalCharacter '\'' fuel rest
    return (String.ofList text, rest)
  | text =>
    let name := text.takeWhile isBare
    if name.isEmpty then none else some (String.ofList name, text.dropWhile isBare)

/-- Names with dots between them. The rest starts with no blank. -/
def names : Nat → Reader (List String)
  | 0, _ => none
  | fuel + 1, text => do
    let (first, rest) ← simpleKey (fuel + 1) (skipBlanks text)
    match skipBlanks rest with
    | '.' :: rest => do
      let (others, rest) ← names fuel rest
      return (first :: others, rest)
    | rest => return ([first], rest)

/-- How far one key may reach into tables, and one value into the values that it is made of. -/
def depthLimit : Nat := 79

/-- A key of one or more names. -/
def key (fuel : Nat) (text : List Char) : Option (List String × List Char) := do
  let (path, rest) ← names fuel text
  if path.length ≤ depthLimit then some (path, rest) else none

/-! ### Words -/

/-- Digits with single underscores between them, which are left out. -/
def digits? (isDigit : Char → Bool) : List Char → Option (List Char)
  | [] => none
  | [c] => if isDigit c then some [c] else none
  | c :: '_' :: rest => if isDigit c then (digits? isDigit rest).map (c :: ·) else none
  | c :: rest => if isDigit c then (digits? isDigit rest).map (c :: ·) else none

def number? (base : Nat) (word : List Char) : Option Nat := do
  let isDigit c := (hexValue? c).any (· < base)
  let digits ← digits? isDigit word
  digits.foldlM (fun n c => (hexValue? c).map (n * base + ·)) 0

/-- Decimal digits without a zero in front of others. -/
def decimal? : List Char → Option Nat
  | ['0'] => some 0
  | '0' :: _ => none
  | word => number? 10 word

/-- The sign in front of a word, if any, and the rest of it. -/
def signed : List Char → Bool × List Char
  | '+' :: rest => (false, rest)
  | '-' :: rest => (true, rest)
  | word => (false, word)

def integer? : List Char → Option Int
  | '0' :: 'x' :: rest => (number? 16 rest).map Int.ofNat
  | '0' :: 'o' :: rest => (number? 8 rest).map Int.ofNat
  | '0' :: 'b' :: rest => (number? 2 rest).map Int.ofNat
  | word =>
    let (negative, rest) := signed word
    (decimal? rest).map fun n => if negative then -(n : Int) else n

/-- The exponent at the end of a number, zero where there is none. -/
def exponent? : List Char → Option Int
  | [] => some 0
  | c :: rest =>
    if c == 'e' || c == 'E' then
      let (negative, digits) := signed rest
      (number? 10 digits).map fun n => if negative then -(n : Int) else n
    else none

/-- A number with a fraction, an exponent or both. -/
def fractional? (word : List Char) : Option Decimal := do
  let isMantissa c := c.isDigit || c == '_'
  let whole ← decimal? (word.takeWhile isMantissa)
  match word.dropWhile isMantissa with
  | '.' :: rest =>
    let digits := rest.takeWhile isMantissa
    let places := (digits.filter Char.isDigit).length
    let fraction ← number? 10 digits
    let exponent ← exponent? (rest.dropWhile isMantissa)
    return ⟨whole * Nat.pow 10 places + fraction, exponent - places⟩
  | [] => none
  | rest => return ⟨whole, ← exponent? rest⟩

/-- A number that need not be whole or finite. One that is infinite only because its digits lead
beyond the range of double precision is refused, unless it is negative. -/
def isFloat (word : List Char) : Bool :=
  let (negative, rest) := signed word
  rest == ['i', 'n', 'f'] || rest == ['n', 'a', 'n'] ||
    (fractional? rest).any fun d => negative || !d.isBeyondRange

/-- Exactly two digits below a bound, and the rest. -/
def twoDigits? (low high : Nat) : Reader Nat
  | a :: b :: rest =>
    if a.isDigit && b.isDigit then
      let n := (a.toNat - 48) * 10 + (b.toNat - 48)
      if low ≤ n ∧ n ≤ high then some (n, rest) else none
    else none
  | _ => none

def isLeap (year : Nat) : Bool := year % 4 == 0 && (year % 100 != 0 || year % 400 == 0)

def monthDays (year month : Nat) : Nat :=
  if month = 2 then if isLeap year then 29 else 28
  else if month = 4 ∨ month = 6 ∨ month = 9 ∨ month = 11 then 30
  else 31

/-- What follows a date. -/
def afterDate? (word : List Char) : Option (List Char) := do
  let (century, rest) ← twoDigits? 0 99 word
  let (years, rest) ← twoDigits? 0 99 rest
  let '-' :: rest := rest | none
  let (month, rest) ← twoDigits? 1 12 rest
  let '-' :: rest := rest | none
  let (_, rest) ← twoDigits? 1 (monthDays (century * 100 + years) month) rest
  return rest

/-- What follows a time of day. -/
def afterTime? (word : List Char) : Option (List Char) := do
  let (_, rest) ← twoDigits? 0 23 word
  let ':' :: rest := rest | none
  let (_, rest) ← twoDigits? 0 59 rest
  let ':' :: rest := rest | none
  let (_, rest) ← twoDigits? 0 60 rest
  match rest with
  | '.' :: c :: rest => if c.isDigit then some (rest.dropWhile Char.isDigit) else none
  | rest => some rest

def isOffset (word : List Char) : Bool :=
  match word with
  | [] | ['Z'] | ['z'] => true
  | sign :: rest =>
    (sign == '+' || sign == '-') &&
      match twoDigits? 0 23 rest with
      | some (_, ':' :: rest) => (twoDigits? 0 59 rest).any (·.2.isEmpty)
      | _ => false

def isZonedTime (word : List Char) : Bool := (afterTime? word).any isOffset

def isDate (word : List Char) : Bool :=
  match afterDate? word with
  | some [] => true
  | some (c :: rest) => (c == 'T' || c == 't' || c == ' ') && isZonedTime rest
  | none => (afterTime? word).any List.isEmpty

def isWordChar (c : Char) : Bool := c.isAlphanum || ['_', '+', '-', '.', ':'].contains c

/-- The word at the front of a text. A date and a time with a blank between them are one word. -/
def word (text : List Char) : List Char × List Char :=
  let first := text.takeWhile isWordChar
  let rest := text.dropWhile isWordChar
  match afterDate? first, rest with
  | some [], ' ' :: c :: rest =>
    if c.isDigit then
      (first ++ ' ' :: (c :: rest).takeWhile isWordChar, (c :: rest).dropWhile isWordChar)
    else (first, ' ' :: c :: rest)
  | _, _ => (first, rest)

/-- Whether a number fits into sixty-four bits, one of them for the sign. -/
def fitsWord (n : Int) : Bool := -9223372036854775808 ≤ n && n ≤ 9223372036854775807

/-- The value of a word. Of a number that is not whole nothing more is known; a date is a table without
any field that has a name here. -/
def wordValue? (word : List Char) : Option Json :=
  match word with
  | ['t', 'r', 'u', 'e'] => some (.bool true)
  | ['f', 'a', 'l', 's', 'e'] => some (.bool false)
  | word =>
    match integer? word with
    | some n => if fitsWord n then some (.integer n) else none
    | none =>
      if isFloat word then some .decimal
      else if isDate word then some (.object [])
      else none

end Paddock.Toml
