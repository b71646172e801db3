/-!
Causes of a failure, as they are reported: a text, which may end in what the outside world or a
reader of some format had to say.
-/
namespace Paddock

/-- What the system answers instead of doing what it was asked. -/
inductive SystemFault where
  | notFound
  | isDirectory
  | notDirectory
  | busy
  | nameTooLong
  | nulInPath
  | invalidArgument
  | networkUnreachable
  | unresolved
  | other (text : String)
deriving DecidableEq, Repr

def SystemFault.message : SystemFault → String
  | notFound => "No such file or directory (os error 2)"
  | isDirectory => "Is a directory (os error 21)"
  | notDirectory => "Not a directory (os error 20)"
  | busy => "Device or resource busy (os error 16)"
  | nameTooLong => "File name too long (os error 36)"
  | nulInPath => "file name contained an unexpected NUL byte"
  | invalidArgument => "Invalid argument (os error 22)"
  | networkUnreachable => "Network is unreachable (os error 101)"
  | unresolved => "failed to lookup address information: Temporary failure in name resolution"
  | other text => text

inductive Origin where
  | json
  | toml
  | system (fault : SystemFault)
deriving DecidableEq, Repr

def Origin.message : Origin → String
  | json => "malformed JSON"
  | toml => "malformed TOML"
  | system fault => fault.message

structure Cause where
  text : String
  origin : Option Origin
deriving DecidableEq, Repr

namespace Cause

def ofText (text : String) : Cause := ⟨text, none⟩

/-- What comes from outside, with nothing added. -/
def ofOrigin (origin : Origin) : Cause := ⟨"", some origin⟩

/-- The cause as text, `spell` saying how its origin is written. -/
def render (spell : Origin → String) (c : Cause) : String :=
  c.text ++ (c.origin.map spell).getD ""

def message (c : Cause) : String := c.render Origin.message

end Cause

/-- What went wrong, and the causes below it, each the cause of the one before. -/
structure Failure where
  cause : Cause
  below : List Cause
deriving DecidableEq, Repr

namespace Failure

def ofCause (cause : Cause) : Failure := ⟨cause, []⟩

def ofText (text : String) : Failure := ofCause (.ofText text)

def ofOrigin (origin : Origin) : Failure := ofCause (.ofOrigin origin)

/-- The same failure, met while doing something. -/
def during (f : Failure) (doing : String) : Failure := ⟨.ofText doing, f.cause :: f.below⟩

/-- All causes on one line. -/
def chain (spell : Origin → String) (f : Failure) : String :=
  String.intercalate ": " ((f.cause :: f.below).map (Cause.render spell))

/-- A text after a mark, its further lines set in by a width. -/
def setIn (mark : String) (width : Nat) (text : String) : String :=
  mark ++ String.ofList (text.toList.flatMap fun c =>
    if c = '\n' then '\n' :: List.replicate width ' ' else [c])

def numberMark (i : Nat) : String :=
  let number := Nat.toDigits 10 i
  String.ofList (List.replicate (5 - number.length) ' ' ++ number ++ [':', ' '])

/-- Causes one below the other, numbered if there are several. -/
def listed : List Cause → List String
  | [cause] => [setIn "    " 4 cause.message]
  | causes => causes.mapIdx fun i cause => setIn (numberMark i) 7 cause.message

/-- The failure as it is told to whoever started the program. -/
def report (f : Failure) : String :=
  let first := "Error: " ++ f.cause.message ++ "\n"
  if f.below.isEmpty then first
  else first ++ "\nCaused by:\n" ++ String.intercalate "\n" (listed f.below) ++ "\n"

end Failure

end Paddock
