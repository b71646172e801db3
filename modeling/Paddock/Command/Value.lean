import Paddock.Account
import Paddock.Amount
import Paddock.Ledger.Event
import Paddock.Part.Spec

/-!
Values of arguments, and how the text of an argument is read. A kind says which texts it takes.
-/
namespace Paddock.Command

/-- Why arguments are refused. Asking for help or for the version ends the reading too. -/
inductive UsageFault where
  | help
  | version
  | nothingGiven
  | missingSubcommand
  | unknownSubcommand
  | unknownArgument
  | unexpectedValue
  | invalidValue
  | malformedValue
  | conflict
  | missingArgument
deriving DecidableEq, Repr

inductive OutputFormat where
  | text
  | json
deriving DecidableEq, Repr

/-- `help` and `version` take no value and end the reading, `flag` takes no value. -/
inductive Kind where
  | help
  | version
  | flag
  | account
  | amount
  | word
  | short
  | byte
  | stats
  | partType
  | partTypes
  | text
  | path
  | format
  | role
deriving DecidableEq, Repr

inductive Value where
  | present
  | account (id : AccountId)
  | amount (value : Amount)
  | word (value : UInt64)
  | short (value : UInt16)
  | byte (value : UInt8)
  | stats (value : PartStats)
  | partType (value : PartType)
  | text (value : String)
  | format (value : OutputFormat)
  | role (value : Authority)
deriving DecidableEq, Repr

def OutputFormat.ofName? : String → Option OutputFormat
  | "text" => some text
  | "json" => some json
  | _ => none

def roleOfName? : String → Option Authority
  | "workshop" => some .workshop
  | "leaderboard" => some .leaderboard
  | _ => none

/-- A number below a bound. A minus may stand before zeros alone. -/
def readSmall? (bound : Nat) : List Char → Option Nat
  | '-' :: digits => if !digits.isEmpty && digits.all (· == '0') then some 0 else none
  | text => (Text.readNumeral bound text).toOption

namespace Kind

def takesValue : Kind → Bool
  | help | version | flag => false
  | _ => true

/-- Whether an argument of the kind may be given more than once. -/
def isRepeatable (kind : Kind) : Bool := kind == partTypes

def orMalformed {α : Type} (make : α → Value) (value : Option α) : Except UsageFault Value :=
  match value with
  | some a => .ok (make a)
  | none => .error .malformedValue

def orInvalid {α : Type} (make : α → Value) (value : Option α) : Except UsageFault Value :=
  match value with
  | some a => .ok (make a)
  | none => .error .invalidValue

/-- Reads one value. -/
def readOne (hash : Hasher) (kind : Kind) (raw : String) : Except UsageFault Value :=
  match kind with
  | help | version | flag => .error .invalidValue
  | account => orMalformed .account (AccountId.named hash raw).toOption
  | amount =>
    orMalformed .amount ((Text.readNumeral amountBound raw.toList).toOption.bind Amount.ofNat?)
  | word => orMalformed (.word ∘ UInt64.ofNat) (Text.readNumeral UInt64.size raw.toList).toOption
  | short => orMalformed (.short ∘ UInt16.ofNat) (readSmall? UInt16.size raw.toList)
  | byte => orMalformed (.byte ∘ UInt8.ofNat) (readSmall? UInt8.size raw.toList)
  | stats => orMalformed .stats (PartStats.parse raw).toOption
  | partType | partTypes => orMalformed .partType (PartType.parse raw).toOption
  | text => .ok (.text raw)
  | path => if raw.isEmpty then .error .invalidValue else .ok (.text raw)
  | format => orInvalid .format (OutputFormat.ofName? raw)
  | role => orInvalid .role (roleOfName? raw)

/-- Reads an argument; some hold several values with commas between them. -/
def read (hash : Hasher) (kind : Kind) (raw : String) : Except UsageFault (List Value) :=
  match kind with
  | partTypes =>
    (Text.fields ',' raw.toList).mapM fun field => readOne hash kind (String.ofList field)
  | _ => (readOne hash kind raw).map ([·])

end Kind

/-! ### Values by their type -/

class OfValue (α : Type) where
  ofValue? : Value → Option α

instance : OfValue AccountId := ⟨fun | .account id => some id | _ => none⟩
instance : OfValue Amount := ⟨fun | .amount value => some value | _ => none⟩
instance : OfValue UInt64 := ⟨fun | .word value => some value | _ => none⟩
instance : OfValue UInt16 := ⟨fun | .short value => some value | _ => none⟩
instance : OfValue UInt8 := ⟨fun | .byte value => some value | _ => none⟩
instance : OfValue PartStats := ⟨fun | .stats value => some value | _ => none⟩
instance : OfValue PartType := ⟨fun | .partType value => some value | _ => none⟩
instance : OfValue String := ⟨fun | .text value => some value | _ => none⟩
instance : OfValue OutputFormat := ⟨fun | .format value => some value | _ => none⟩
instance : OfValue Authority := ⟨fun | .role value => some value | _ => none⟩
instance : OfValue CarId := ⟨fun | .word value => some ⟨value⟩ | _ => none⟩
instance : OfValue PartId := ⟨fun | .word value => some ⟨value⟩ | _ => none⟩

/-- Values by the names of their parameters, in the order in which they were given. -/
structure Found where
  values : List (String × Value)
deriving DecidableEq, Repr

namespace Found

def empty : Found := ⟨[]⟩

def has (f : Found) (name : String) : Bool := f.values.any (·.1 == name)

def add (f : Found) (name : String) (values : List Value) : Found :=
  ⟨f.values ++ values.map (name, ·)⟩

def all {α : Type} [OfValue α] (f : Found) (name : String) : List α :=
  f.values.filterMap fun v => if v.1 == name then OfValue.ofValue? v.2 else none

def get? {α : Type} [OfValue α] (f : Found) (name : String) : Option α := (f.all name).head?

end Found

end Paddock.Command
