import Paddock.Url.Host

/-!
URLs of services on the web, read leniently and written in one form: no blanks, no steps to the same
or the upper directory, no port that goes without saying, and no credentials.
-/
namespace Paddock

structure Url where
  isSecure : Bool
  host : Host
  port : Option Nat
  path : List (List Char)
  query : Option (List Char)
  fragment : Option (List Char)
deriving DecidableEq, Repr

namespace Url

/-! ### Host and port -/

def isSlash (c : Char) : Bool := c == '/' || c == '\\'

def endsAuthority (c : Char) : Bool := isSlash c || c == '?' || c == '#'

/-- What stands behind the last at sign. -/
def dropCredentials (authority : List Char) : List Char :=
  (authority.reverse.takeWhile (· != '@')).reverse

/-- The host, and what follows it from the first colon outside brackets. -/
def splitHost (isInside : Bool) : List Char → List Char × List Char
  | [] => ([], [])
  | c :: rest =>
    if c == ':' && !isInside then ([], c :: rest)
    else
      let (host, port) := splitHost (c == '[' || isInside && c != ']') rest
      (c :: host, port)

def defaultPort (isSecure : Bool) : Nat := if isSecure then 443 else 80

/-- A port behind its colon, unless it is the default. -/
def port? (isSecure : Bool) : List Char → Except UrlFault (Option Nat)
  | [] | [_] => .ok none
  | _ :: digits =>
    match Host.digits? 10 digits with
    | some n =>
      if 65535 < n then .error .invalidPort
      else if n = defaultPort isSecure then .ok none
      else .ok (some n)
    | none => .error .invalidPort

/-! ### Path -/

/-- Whether a segment is dots, some of which may be percent-encoded. -/
def isDots (count : Nat) (segment : List Char) : Bool :=
  match count, segment with
  | 0, [] => true
  | n + 1, '.' :: rest => isDots n rest
  | n + 1, '%' :: '2' :: e :: rest => (e == 'e' || e == 'E') && isDots n rest
  | _, _ => false

/-- A letter with a colon or a bar, which no step leads above. -/
def isDrive : List Char → Bool
  | [letter, mark] => letter.isAlpha && (mark == ':' || mark == '|')
  | _ => false

/-- The characters besides controls that are encoded in a path, in a query and in a fragment. -/
def pathSpecials : List Char := " \"#<>?`\x7b\x7d".toList

def querySpecials : List Char := " \"#<>'".toList

def fragmentSpecials : List Char := " \"<>`".toList

/-- The path one segment on, the last segment first. A step at the end leaves an empty segment. -/
def addSegment (path : List (List Char)) (segment : List Char) (isLast : Bool) : List (List Char) :=
  let close (path : List (List Char)) := if isLast then [] :: path else path
  if isDots 1 segment then close path
  else if isDots 2 segment then
    match path with
    | [] => close []
    | last :: before => close (if isDrive last then last :: before else before)
  else Text.percentEncode pathSpecials segment :: path

def addSegments (path : List (List Char)) : List (List Char) → List (List Char)
  | [] => path
  | [last] => addSegment path last true
  | segment :: rest => addSegments (addSegment path segment false) rest

/-- The segments of a path, which a slash may begin. -/
def readPath (text : List Char) : List (List Char) :=
  let text := text.map fun c => if isSlash c then '/' else c
  let text := match text with
    | '/' :: rest => rest
    | text => text
  (addSegments [] (Text.fields '/' text)).reverse

/-! ### The whole -/

/-- Reads what follows the scheme and its colon. Any number of slashes leads to the host. -/
def afterScheme (isSecure : Bool) (text : List Char) : Except UrlFault Url := do
  let text := text.dropWhile isSlash
  let rest := text.dropWhile (!endsAuthority ·)
  let (host, port) := splitHost false (dropCredentials (text.takeWhile (!endsAuthority ·)))
  let host ← Host.parse host
  let port ← port? isSecure port
  let main := rest.takeWhile (· != '#')
  let query := match main.dropWhile (· != '?') with
    | _ :: query => some (Text.percentEncode querySpecials query)
    | [] => none
  let fragment := match rest.dropWhile (· != '#') with
    | _ :: fragment => some (Text.percentEncode fragmentSpecials fragment)
    | [] => none
  return ⟨isSecure, host, port, readPath (main.takeWhile (· != '?')), query, fragment⟩

/-- Controls and blanks around a URL and line breaks and tabs within it are passed over. -/
def bare (text : List Char) : List Char :=
  let isOuter (c : Char) : Bool := c.toNat ≤ 0x20
  let text := ((text.dropWhile isOuter).reverse.dropWhile isOuter).reverse
  text.filter fun c => c != '\t' && c != '\n' && c != '\r'

def parse (text : String) : Except UrlFault Url :=
  let text := bare text.toList
  let scheme := (text.takeWhile (· != ':')).map Char.toLower
  match text.dropWhile (· != ':') with
  | _ :: rest =>
    if scheme = "http".toList then afterScheme false rest
    else if scheme = "https".toList then afterScheme true rest
    else .error .noScheme
  | [] => .error .noScheme

def render (url : Url) : String :=
  let scheme := if url.isSecure then "https://" else "http://"
  let port := (url.port.map fun n => ':' :: Nat.toDigits 10 n).getD []
  let query := (url.query.map ('?' :: ·)).getD []
  let fragment := (url.fragment.map ('#' :: ·)).getD []
  String.ofList (scheme.toList ++ url.host.render ++ port ++ url.path.flatMap ('/' :: ·) ++ query ++
    fragment)

/-- The greatest number of bytes that the target of a request may have. -/
def maxTargetBytes : Nat := 65534

/-- Whether requests can be sent there: not every name that can be read can be called. -/
def isCallable (url : Url) : Bool :=
  url.render.utf8ByteSize ≤ maxTargetBytes &&
    match url.host with
    | .name text => text.all (!"\"`\x7b\x7d".toList.contains ·)
    | _ => true

end Url

end Paddock
