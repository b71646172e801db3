import Paddock.Disk
import Paddock.Generator.Service
import Paddock.Ledger.Basic
import Paddock.Toml.Parser

/-!
Settings: the terms of new ledgers and where the generator is, from a TOML file. Without a file, and
for all that the file leaves out, there are defaults.
-/
namespace Paddock

structure Settings where
  ledger : LedgerConfig
  generator : GeneratorConfig
deriving DecidableEq, Repr

open Json

namespace Settings

def default : Settings := ⟨.default, .default⟩

def fieldNames : List (List String) := [["ledger"], ["generator"]]

/-- The values of a record given in order, of which more may follow than it has fields. -/
def withoutSurplus (names : List (List String)) : Json → Json
  | .array items => .array (items.take names.length)
  | j => j

instance : Decode Settings where
  decode? j :=
    match partialFields? fieldNames j with
    | some [ledger, generator] => do
      let ledger := ledger.map (withoutSurplus LedgerConfig.fieldNames)
      let generator := generator.map (withoutSurplus GeneratorConfig.fieldNames)
      let ledger ← withDefault default.ledger ledger
      let generator ← withDefault default.generator generator
      return ⟨ledger, generator⟩
    | _ => none

def ofToml (path text : String) : Except Failure Settings :=
  match (Toml.parse text).bind decode? with
  | none => .error ((Failure.ofOrigin .toml).during s!"parsing config {path}")
  | some settings =>
    match (settings : Settings).ledger.validate with
    | .ok () => .ok settings
    | .error fault => .error (.ofCause (LedgerError.invalidConfig fault).cause)

def load (disk : Disk) (path : String) : Except Failure Settings :=
  if !disk.contains path then .ok default
  else
    match disk.read path with
    | .ok text => ofToml path text
    | .error fault => .error ((Failure.ofOrigin (.system fault)).during s!"reading config {path}")

end Settings

end Paddock
