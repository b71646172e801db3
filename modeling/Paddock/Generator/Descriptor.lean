import Paddock.Json.Parser
import Paddock.Part.Spec

/-!
What is asked of the generator, and what it answers: an image and the specs of some parts. An answer
is not trusted: a stat may be too great for a part, and whether it is too great for the ledger is
asked when the car is minted.
-/
namespace Paddock

/-- All but the prompt may be left to the generator. -/
structure GenerationRequest where
  prompt : String
  style : Option String := none
  creatorType : Option String := none
  transmissionType : Option String := none
  wheelsType : Option String := none
deriving DecidableEq, Repr

structure CarDescriptor where
  image : String
  parts : List PartSpec
deriving DecidableEq, Repr

def CarDescriptor.toMintRequest (d : CarDescriptor) : MintRequest := ⟨d.image, d.parts⟩

/-- A part as the generator describes it. -/
structure WirePart where
  kind : PartType
  first : UInt16
  second : UInt16
  third : UInt16
  image : String
deriving DecidableEq, Repr

structure WireDescriptor where
  image : String
  parts : List WirePart
deriving DecidableEq, Repr

inductive DescriptorFault where
  | unreadable
  | invalidStat (part : Nat) (value : UInt16)
deriving DecidableEq, Repr

namespace WirePart

/-- The stat in a byte; `part` is the place of the part in its list. -/
def narrow (part : Nat) (value : UInt16) : Except DescriptorFault UInt8 :=
  if value.toNat < UInt8.size then .ok (UInt8.ofNat value.toNat) else .error (.invalidStat part value)

def toSpec (part : Nat) (w : WirePart) : Except DescriptorFault PartSpec := do
  let first ← narrow part w.first
  let second ← narrow part w.second
  let third ← narrow part w.third
  return ⟨w.kind, ⟨first, second, third⟩, w.image⟩

/-- The specs of parts that stand from place `part` on. -/
def toSpecs (part : Nat) : List WirePart → Except DescriptorFault (List PartSpec)
  | [] => .ok []
  | w :: rest => do
    let spec ← w.toSpec part
    let specs ← toSpecs (part + 1) rest
    return spec :: specs

end WirePart

def WireDescriptor.toDescriptor (w : WireDescriptor) : Except DescriptorFault CarDescriptor := do
  let parts ← WirePart.toSpecs 0 w.parts
  return ⟨w.image, parts⟩

open Json

/-- A field that is left out when it has no value. -/
def optionalField (name : String) (value : Option String) : List (Name × Json) :=
  match value with
  | some text => [(name, encode text)]
  | none => []

instance : Encode GenerationRequest where
  encode r := .object (("prompt", encode r.prompt) :: (optionalField "style" r.style ++
    optionalField "creatorType" r.creatorType ++
    optionalField "transmissionType" r.transmissionType ++
    optionalField "wheelsType" r.wheelsType))

def GenerationRequest.fieldNames : List (List String) :=
  [["prompt"], ["style"], ["creatorType"], ["transmissionType"], ["wheelsType"]]

instance : Decode GenerationRequest where
  decode? j :=
    match fields? GenerationRequest.fieldNames j with
    | some [prompt, style, creatorType, transmissionType, wheelsType] => do
      let prompt ← required prompt
      let style ← orNull style
      let creatorType ← orNull creatorType
      let transmissionType ← orNull transmissionType
      let wheelsType ← orNull wheelsType
      return ⟨prompt, style, creatorType, transmissionType, wheelsType⟩
    | _ => none

instance : Encode CarDescriptor where
  encode d := .object [("carImageURI", encode d.image), ("parts", encode d.parts)]

instance : Decode WirePart where
  decode? j :=
    match fields? [["partType"], ["stat1"], ["stat2"], ["stat3"], ["imageURI"]] j with
    | some [kind, first, second, third, image] => do
      let kind ← required kind
      let first ← required first
      let second ← required second
      let third ← required third
      let image ← required image
      return ⟨kind, first, second, third, image⟩
    | _ => none

instance : Decode WireDescriptor where
  decode? j :=
    match fields? [["carImageURI"], ["parts"]] j with
    | some [image, parts] => do
      let image ← required image
      let parts ← required parts
      return ⟨image, parts⟩
    | _ => none

def CarDescriptor.ofJson (text : String) : Except DescriptorFault CarDescriptor :=
  match (Json.parse text).bind decode? with
  | some (wire : WireDescriptor) => wire.toDescriptor
  | none => .error .unreadable

end Paddock
