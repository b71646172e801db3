import Paddock.Command.Value

/-!
Arguments against parameters. Arguments are taken one by one; the value of the last one stays open
until the next argument is known to be right, so of two faults in a row the later may be the one that
is reported.
-/
namespace Paddock.Command

/-- A parameter is given by position, or by its name and perhaps a letter. -/
structure Parameter where
  name : String
  kind : Kind
  positional : Bool := false
  letter : Option Char := none
deriving DecidableEq, Repr

/-- What may be given at one level: before a subcommand, or behind it. -/
structure Level where
  parameters : List Parameter
  conflicts : List (String × String) := []
  subcommands : List String := []

/-- An argument that stands open has the parameter it is for, and its text unless that is yet to
come. -/
structure Scan where
  found : Found
  pending : Option (Parameter × Option String)
  positionals : List Parameter
  trailing : Bool

/-- What an argument looks like. -/
inductive Shape where
  | escape
  | long (name : String) (value : Option String)
  | letters (letters : List Char)
  | value

def shape (arg : String) : Shape :=
  match arg.toList with
  | ['-', '-'] => .escape
  | '-' :: '-' :: rest =>
    let name := String.ofList (rest.takeWhile (· != '='))
    match rest.dropWhile (· != '=') with
    | [] => .long name none
    | _ :: value => .long name (some (String.ofList value))
  | '-' :: c :: rest => .letters (c :: rest)
  | _ => .value

namespace Level

def positionals (level : Level) : List Parameter := level.parameters.filter (·.positional)

def named? (level : Level) (name : String) : Option Parameter :=
  level.parameters.find? fun p => !p.positional && p.name == name

def lettered? (level : Level) (letter : Char) : Option Parameter :=
  level.parameters.find? fun p => !p.positional && p.letter == some letter

def start (level : Level) : Scan := ⟨.empty, none, level.positionals, false⟩

end Level

namespace Scan

variable (hash : Hasher) (level : Level)

/-- Whether the next argument is the value of the last one. -/
def isAwaiting (s : Scan) : Bool :=
  match s.pending with
  | some (_, none) => true
  | _ => false

/-- Reads the argument that stands open. -/
def settle (s : Scan) : Except UsageFault Scan :=
  match s.pending with
  | none => .ok s
  | some (_, none) => .error .invalidValue
  | some (p, some raw) => do
    if s.found.has p.name && !p.kind.isRepeatable then throw .conflict
    let values ← p.kind.read hash raw
    return { s with found := s.found.add p.name values, pending := none }

/-- Takes an argument that has no value. -/
def flag (s : Scan) (p : Parameter) : Except UsageFault Scan := do
  let s ← s.settle hash
  match p.kind with
  | .help => throw .help
  | .version => throw .version
  | _ =>
    if s.found.has p.name then throw .conflict
    return { s with found := s.found.add p.name [.present] }

/-- Takes an argument whose value may come with it. -/
def option (s : Scan) (p : Parameter) (value : Option String) : Except UsageFault Scan := do
  let s ← s.settle hash
  let s := { s with pending := some (p, value) }
  if value.isSome then s.settle hash else return s

def positional (s : Scan) (arg : String) : Except UsageFault Scan :=
  match s.positionals with
  | p :: rest => do
    let s ← s.settle hash
    return { s with pending := some (p, some arg), positionals := rest }
  | [] =>
    if level.subcommands.isEmpty || (s.trailing && level.subcommands.contains arg) then
      .error .unknownArgument
    else .error .unknownSubcommand

/-- Takes letters after one dash. The first one that takes a value has the rest for it. -/
def letters (s : Scan) : List Char → Except UsageFault Scan
  | [] => .ok s
  | c :: rest =>
    match level.lettered? c with
    | none => .error .unknownArgument
    | some p =>
      if p.kind.takesValue then
        match rest with
        | [] => s.option hash p none
        | '=' :: value => s.option hash p (some (String.ofList value))
        | value => s.option hash p (some (String.ofList value))
      else do
        let s ← s.flag hash p
        s.letters rest

def long (s : Scan) (name : String) (value : Option String) : Except UsageFault Scan :=
  match level.named? name with
  | none => .error .unknownArgument
  | some p =>
    if p.kind.takesValue then s.option hash p value
    else if value.isSome then .error .unexpectedValue
    else s.flag hash p

/-- Takes one argument. After two dashes every argument is a value by position. -/
def take (s : Scan) (arg : String) : Except UsageFault Scan :=
  if s.trailing then s.positional hash level arg
  else
    match shape arg with
    | .escape => .ok { s with trailing := true }
    | .long name value => s.long hash level name value
    | .letters cs => s.letters hash level cs
    | .value =>
      match s.pending with
      | some (p, none) => .ok { s with pending := some (p, some arg) }
      | _ => s.positional hash level arg

/-- What comes of asking for help about subcommands. -/
def helpFault : List String → UsageFault
  | [] => .help
  | [name] => if level.subcommands.contains name then .help else .unknownSubcommand
  | _ => .unknownSubcommand

def startsSubcommand (s : Scan) (arg : String) : Bool :=
  !s.trailing && !s.isAwaiting && level.subcommands.contains arg

/-- Takes arguments up to a subcommand. -/
def takeAll (s : Scan) : List String → Except UsageFault (Scan × Option (String × List String))
  | [] => .ok (s, none)
  | arg :: rest =>
    if s.startsSubcommand level arg then
      if arg = "help" then .error (helpFault level rest) else .ok (s, some (arg, rest))
    else do
      let s ← s.take hash level arg
      s.takeAll rest

/-- Everything found at the level, once all arguments are taken. -/
def finish (s : Scan) : Except UsageFault Found := do
  let s ← s.settle hash
  if level.conflicts.any fun c => s.found.has c.1 && s.found.has c.2 then throw .conflict
  return s.found

end Scan

end Paddock.Command
