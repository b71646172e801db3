import Paddock.Text.Fields
import Paddock.Text.Percent
import Paddock.Text.Punycode

/-!
Hosts of URLs: names, and addresses of thirty-two or of a hundred and twenty-eight bits. Each host has
one written form, whatever it is read from.
-/
namespace Paddock

/-- What keeps a text from being a URL. -/
inductive UrlFault where
  | noScheme
  | noHost
  | invalidName
  | invalidPort
  | invalidAddress
  | invalidLongAddress
deriving DecidableEq, Repr

def UrlFault.message : UrlFault → String
  | noScheme => "relative URL without a base"
  | noHost => "empty host"
  | invalidName => "invalid international domain name"
  | invalidPort => "invalid port number"
  | invalidAddress => "invalid IPv4 address"
  | invalidLongAddress => "invalid IPv6 address"

/-- A long address is eight groups of sixteen bits. -/
inductive Host where
  | name (text : List Char)
  | address (bits : Nat)
  | longAddress (groups : List Nat)
deriving DecidableEq, Repr

namespace Host

def digitOf? (base : Nat) (c : Char) : Option Nat :=
  let value :=
    if '0' ≤ c ∧ c ≤ '9' then c.toNat - 48
    else if 'a' ≤ c ∧ c ≤ 'f' then c.toNat - 87
    else if 'A' ≤ c ∧ c ≤ 'F' then c.toNat - 55
    else base
  if value < base then some value else none

def digits? (base : Nat) (text : List Char) : Option Nat :=
  text.foldlM (fun n c => (digitOf? base c).map (n * base + ·)) 0

/-! ### Addresses -/

/-- A part of an address: decimal, octal behind a zero, or hexadecimal behind `0x`. -/
def part? : List Char → Option Nat
  | [] => none
  | '0' :: 'x' :: rest => digits? 16 rest
  | '0' :: c :: rest => digits? 8 (c :: rest)
  | text => digits? 10 text

/-- The parts of a name with dots, the last first. One dot may end the name. -/
def partsBackward (text : List Char) : List (List Char) :=
  match (Text.fields '.' text).reverse with
  | [] :: rest => rest
  | parts => parts

/-- Whether a name has to be read as an address. -/
def endsInNumber (text : List Char) : Bool :=
  match partsBackward text with
  | [] => false
  | last :: _ => (!last.isEmpty && last.all Char.isDigit) || (part? last).isSome

/-- The bits of the parts in front of the last one, which are given the last first. -/
def leadingBits : List Nat → Nat
  | [] => 0
  | n :: before => n * Nat.pow 256 (3 - before.length) + leadingBits before

/-- An address of up to four parts. The last part takes all bits that the others leave. -/
def address? (text : List Char) : Option Nat := do
  let parts := partsBackward text
  match ← parts.mapM part? with
  | [] => none
  | last :: before =>
    if before.length < 4 ∧ before.all (· < 256) ∧ last < Nat.pow 256 (4 - before.length) then
      some (last + leadingBits before)
    else none

/-! ### Long addresses -/

def group? (text : List Char) : Option Nat :=
  if text.isEmpty ∨ 4 < text.length then none else digits? 16 text

/-- A number below 256 without a zero in front. -/
def byte? (text : List Char) : Option Nat :=
  match text with
  | [] => none
  | '0' :: _ :: _ => none
  | text => (digits? 10 text).filter (· < 256)

/-- The last two groups may be given as four bytes. -/
def lastGroups? (text : List Char) : Option (List Nat) :=
  match (Text.fields '.' text).mapM byte? with
  | some [a, b, c, d] => some [a * 256 + b, c * 256 + d]
  | _ => (group? text).map ([·])

/-- Groups with colons between them, bytes at the end perhaps. -/
def groups? (mayEndInBytes : Bool) (text : List Char) : Option (List Nat) :=
  if text.isEmpty then some []
  else
    let fields := Text.fields ':' text
    match fields.getLast? with
    | some last => do
      let before ← fields.dropLast.mapM group?
      let last ← if mayEndInBytes then lastGroups? last else (group? last).map ([·])
      return before ++ last
    | none => none

/-- What stands before and behind the first pair of colons. -/
def splitPair : List Char → Option (List Char × List Char)
  | ':' :: ':' :: rest => some ([], rest)
  | c :: rest => (splitPair rest).map fun (before, behind) => (c :: before, behind)
  | [] => none

/-- Eight groups; a pair of colons stands for as many groups of zero as are missing. -/
def longAddress? (text : List Char) : Option (List Nat) :=
  match splitPair text with
  | none => (groups? true text).filter (·.length == 8)
  | some (before, behind) => do
    let before ← groups? false before
    let behind ← groups? true behind
    let missing := 8 - (before.length + behind.length)
    if missing = 0 then none else some (before ++ List.replicate missing 0 ++ behind)

/-! ### Names -/

/-- A character that no name has. -/
def isForbidden (c : Char) : Bool :=
  !Text.isPrintableAscii c || " #%/:<>?@[\\]^|".toList.contains c

/-- A name in lower case, with percent signs decoded and labels in ASCII. -/
def name? (text : List Char) : Option (List Char) := do
  let bytes := Text.percentDecode (text.flatMap String.utf8EncodeChar)
  let decoded ← String.fromUTF8? ⟨bytes.toArray⟩
  let labels := (Text.fields '.' (decoded.toList.map Char.toLower)).map Text.Punycode.label
  let ascii := List.intercalate ['.'] labels
  if ascii.any isForbidden then none else some ascii

/-- Reads a host. A name that ends in a number is an address. -/
def parse (text : List Char) : Except UrlFault Host :=
  match text with
  | [] => .error .noHost
  | '[' :: rest =>
    if rest.getLast? = some ']' then
      match longAddress? rest.dropLast with
      | some groups => .ok (.longAddress groups)
      | none => .error .invalidLongAddress
    else .error .invalidLongAddress
  | text =>
    match name? text with
    | none => .error .invalidName
    | some ascii =>
      if endsInNumber ascii then
        match address? ascii with
        | some bits => .ok (.address bits)
        | none => .error .invalidAddress
      else .ok (.name ascii)

/-! ### The written form -/

/-- How many groups of zero stand at the front. -/
def zeros (groups : List Nat) : Nat := (groups.takeWhile (· == 0)).length

/-- Where the longest run of two or more groups of zero begins, the first of several. -/
def longestRun? (groups : List Nat) : Option Nat :=
  let starts := List.range groups.length
  let longest := starts.foldl (fun n i => max n (zeros (groups.drop i))) 0
  if longest < 2 then none else starts.find? fun i => zeros (groups.drop i) == longest

def writeGroups (groups : List Nat) : List Char :=
  List.intercalate [':'] (groups.map (Nat.toDigits 16))

/-- Groups in hexadecimal, the longest run of zeros left out. -/
def writeLong (groups : List Nat) : List Char :=
  match longestRun? groups with
  | none => writeGroups groups
  | some i =>
    let behind := groups.drop i
    writeGroups (groups.take i) ++ [':', ':'] ++ writeGroups (behind.drop (zeros behind))

def render : Host → List Char
  | name text => text
  | address bits =>
    List.intercalate ['.'] ([bits / 16777216, bits / 65536 % 256, bits / 256 % 256, bits % 256].map
      (Nat.toDigits 10))
  | longAddress groups => '[' :: writeLong groups ++ [']']

end Host

end Paddock
