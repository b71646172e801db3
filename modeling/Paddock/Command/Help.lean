import Paddock.Command.Forms

/-!
What the program says about itself, and about arguments that it refuses.
-/
namespace Paddock.Command

def versionLine : String := "rush 0.1.0\n"

/-- How the value of a parameter stands among the arguments. -/
def Parameter.synopsis (p : Parameter) : String :=
  if p.positional then s!"<{p.name}>"
  else if p.kind.takesValue then s!"[--{p.name} <{p.name}>]"
  else s!"[--{p.name}]"

def Form.synopsis (form : Form) : String :=
  String.intercalate " " (form.name :: form.parameters.map Parameter.synopsis)

def usage : String :=
  let heading := ["Usage: rush [OPTIONS] <COMMAND>", "", "Options:"]
  let options := (help :: version :: shared).map fun p => "  " ++ p.synopsis
  let commands := forms.map fun form => "  " ++ form.synopsis
  String.intercalate "\n" (heading ++ options ++ ["", "Commands:"] ++ commands) ++ "\n"

def UsageFault.message : UsageFault → String
  | help => usage
  | version => versionLine
  | nothingGiven => usage
  | missingSubcommand => "error: a subcommand is missing\n"
  | unknownSubcommand => "error: there is no such subcommand\n"
  | unknownArgument => "error: there is no such argument\n"
  | unexpectedValue => "error: an argument has a value that takes none\n"
  | invalidValue => "error: an argument has none of the values that it may have\n"
  | malformedValue => "error: the value of an argument cannot be read\n"
  | conflict => "error: arguments exclude each other\n"
  | missingArgument => "error: an argument is missing\n"

end Paddock.Command
