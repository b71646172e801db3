import Paddock.Blake3
import Paddock.Command.Help
import Paddock.Program.Run

/-!
The command line. The files that a command looks at are read first, and the state file is written if
the command changed it. No transport to the generator is built in.
-/
namespace Paddock.CommandLine

/-- A system error by its number, which may come negated. -/
def systemFault (code : UInt32) (e : IO.Error) : SystemFault :=
  if code = 20 ∨ code = 0 - 20 then .notDirectory
  else if code = 21 ∨ code = 0 - 21 then .isDirectory
  else .other (toString e)

def faultOf (e : IO.Error) : SystemFault :=
  match e with
  | .noFileOrDirectory .. => .notFound
  | .inappropriateType _ code _ => systemFault code e
  | _ => .other (toString e)

/-- The disk with what stands at the end of a path. -/
def lookAt (disk : Disk) (path : String) : IO Disk := do
  try
    let content ← IO.FS.readFile path
    return disk.put (.ofPath path) (.file content)
  catch e =>
    match faultOf e with
    | .notFound | .notDirectory => return disk
    | .isDirectory => return disk.put (.ofPath path) .directory
    | fault => return disk.put (.ofPath path) (.unreadable fault)

/-- The disk with all that a path leads through. -/
def look (disk : Disk) (path : String) : IO Disk := (Path.prefixes path).foldlM lookAt disk

/-- Writes a file beside the old one, which it then replaces. If it cannot, it is removed. -/
def write (path content : String) : IO Unit := do
  let draft := Path.draftIn (Path.parent path)
  IO.FS.writeFile draft content
  try
    IO.FS.rename draft path
  catch e =>
    IO.FS.removeFile draft
    throw e

def saveChange (path : String) (before after : Disk) : IO (Option Failure) := do
  match after.read path with
  | .ok content =>
    if (before.read path).toOption = some content then return none
    try
      write path content
      return none
    catch e => return some ((Failure.ofOrigin (.system (faultOf e))).during s!"writing state {path}")
  | .error _ => return none

def environment : IO Environment := do
  let isTerminal ← (← IO.getStdout).isTty
  let colours := usesColours isTerminal (← IO.getEnv "CLICOLOR_FORCE") (← IO.getEnv "NO_COLOR")
    (← IO.getEnv "CLICOLOR")
  return ⟨Blake3.hash, .unreachable, colours⟩

def carryOut (inv : Invocation) : IO UInt32 := do
  let disk ← inv.paths.foldlM look .empty
  let outcome := inv.run (← environment) disk
  match ← saveChange inv.statePath disk outcome.disk with
  | some failure =>
    IO.eprint failure.report
    return 1
  | none =>
    IO.print outcome.output
    if let some failure := outcome.failure then IO.eprint failure.report
    return outcome.exitCode

end Paddock.CommandLine

def main (args : List String) : IO UInt32 := do
  match Paddock.Command.parse Paddock.Blake3.hash args with
  | .ok inv => Paddock.CommandLine.carryOut inv
  | .error fault =>
    if fault.exitCode = 0 then IO.print fault.message else IO.eprint fault.message
    return fault.exitCode
