import Paddock.Json.Token

/-!
Values from tokens. The reader keeps the containers that are still open and takes one token at a
time, so that reading is a fold over the tokens.
-/
namespace Paddock.Json

/-- A container still open, its contents last first. An object stops being readable when the name
of one of its members is not. -/
inductive Frame where
  | array (items : List Json)
  | object (members : List (Name × Json)) (name : Name) (readable : Bool)

/-- What may come next. -/
inductive Expect where
  | value
  | itemOrEnd
  | commaOrEnd
  | nameOrEnd
  | name
  | colon
  | nothing (result : Json)

structure Reader where
  frames : List Frame
  expect : Expect

namespace Reader

/-- A finished value goes into the innermost open container. -/
def put (frames : List Frame) (value : Json) : Reader :=
  match frames with
  | [] => ⟨[], .nothing value⟩
  | .array items :: outer => ⟨.array (value :: items) :: outer, .commaOrEnd⟩
  | .object members name readable :: outer =>
    ⟨.object ((name, value) :: members) name readable :: outer, .commaOrEnd⟩

def value (frames : List Frame) : Token → Option Reader
  | .openArray => some ⟨.array [] :: frames, .itemOrEnd⟩
  | .openObject => some ⟨.object [] "" true :: frames, .nameOrEnd⟩
  | .null => some (put frames .null)
  | .bool b => some (put frames (.bool b))
  | .integer n => some (put frames (.integer n))
  | .decimal => some (put frames .decimal)
  | .string s _ => some (put frames (.string s))
  | .outOfRange | .brokenString => some (put frames .unreadable)
  | _ => none

/-- How many containers may lie inside one another. -/
def depthLimit : Nat := 127

/-- A finished container goes into the one around it. -/
def putContainer (outer : List Frame) (container : Json) : Reader :=
  put outer (if outer.length < depthLimit then container else .unreadable)

/-- The end of the innermost open container. -/
def close (frames : List Frame) (token : Token) : Option Reader :=
  match frames, token with
  | .array items :: outer, .closeArray => some (putContainer outer (.array items.reverse))
  | .object members _ readable :: outer, .closeObject =>
    some (putContainer outer (if readable then .object members.reverse else .unreadable))
  | _, _ => none

def name (frames : List Frame) (token : Token) : Option Reader :=
  match frames, token with
  | .object members _ readable :: outer, .string s escaped =>
    some ⟨.object members ⟨s, escaped⟩ readable :: outer, .colon⟩
  | .object members _ _ :: outer, .brokenString => some ⟨.object members "" false :: outer, .colon⟩
  | _, _ => none

def step (r : Reader) (token : Token) : Option Reader :=
  match r.expect, token with
  | .value, token => value r.frames token
  | .itemOrEnd, .closeArray => close r.frames .closeArray
  | .itemOrEnd, token => value r.frames token
  | .commaOrEnd, .comma =>
    match r.frames with
    | .array _ :: _ => some { r with expect := .value }
    | .object .. :: _ => some { r with expect := .name }
    | [] => none
  | .commaOrEnd, token => close r.frames token
  | .nameOrEnd, .closeObject => close r.frames .closeObject
  | .nameOrEnd, token => name r.frames token
  | .name, token => name r.frames token
  | .colon, .colon => some { r with expect := .value }
  | .colon, _ => none
  | .nothing _, _ => none

end Reader

def ofTokens? (tokens : List Token) : Option Json := do
  let r ← tokens.foldlM Reader.step ⟨[], .value⟩
  match r.expect with
  | .nothing result => some result
  | _ => none

/-- Reads one value that takes up the whole text. -/
def parse (text : String) : Option Json := do
  let tokens ← Token.scan text.toList
  ofTokens? tokens

end Paddock.Json
