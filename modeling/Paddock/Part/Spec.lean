import Paddock.Part.Kind
import Paddock.Text.Blank
import Paddock.Text.Fields
import Paddock.Text.Quoted

/-!
What parts and cars are minted from.
-/
namespace Paddock

/-- The three stats of a part. What each means depends on the kind of part. -/
structure PartStats where
  first : UInt8
  second : UInt8
  third : UInt8
deriving DecidableEq, Repr

/-- Why a text does not give three stats. -/
inductive StatsFault where
  | numeral (text : String) (fault : Text.NumeralFault)
  | wrongCount (count : Nat)
deriving DecidableEq, Repr

def StatsFault.message : StatsFault → String
  | numeral text fault => s!"{Text.quoted text}: {fault.message}"
  | wrongCount count => s!"expected 3 stats, got {count}"

namespace PartStats

def toList (s : PartStats) : List UInt8 := [s.first, s.second, s.third]

def parseOne (field : List Char) : Except StatsFault UInt8 :=
  match Text.readNumeral UInt8.size (Text.trim field) with
  | .ok n => .ok (UInt8.ofNat n)
  | .error fault => .error (.numeral (String.ofList field) fault)

/-- Reads stats between commas; every one of them is read before they are counted. -/
def parse (text : String) : Except StatsFault PartStats := do
  let stats ← (Text.fields ',' text.toList).mapM parseOne
  match stats with
  | [first, second, third] => return ⟨first, second, third⟩
  | _ => throw (.wrongCount stats.length)

end PartStats

structure PartSpec where
  kind : PartType
  stats : PartStats
  image : String
deriving DecidableEq, Repr

/-- A car's image and a spec for each of its parts, in any order. -/
structure MintRequest where
  image : String
  parts : List PartSpec
deriving DecidableEq, Repr

open Json

instance : Encode PartSpec where
  encode spec := .object [
    ("partType", encode spec.kind),
    ("stat1", encode spec.stats.first),
    ("stat2", encode spec.stats.second),
    ("stat3", encode spec.stats.third),
    ("imageURI", encode spec.image)]

def PartSpec.fieldNames : List (List String) := [
  ["partType", "part_type"], ["stat1"], ["stat2"], ["stat3"],
  ["imageURI", "imageUri", "image_uri"]]

instance : Decode PartSpec where
  decode? j :=
    match fields? PartSpec.fieldNames j with
    | some [kind, first, second, third, image] => do
      let kind ← required kind
      let first ← required first
      let second ← required second
      let third ← required third
      let image ← required image
      return ⟨kind, ⟨first, second, third⟩, image⟩
    | _ => none

instance : Encode MintRequest where
  encode request := .object [
    ("carImageURI", encode request.image),
    ("parts", encode request.parts)]

def MintRequest.fieldNames : List (List String) :=
  [["carImageURI", "imageURI", "image_uri"], ["parts"]]

instance : Decode MintRequest where
  decode? j :=
    match fields? MintRequest.fieldNames j with
    | some [image, parts] => do
      let image ← required image
      let parts ← required parts
      return ⟨image, parts⟩
    | _ => none

end Paddock
