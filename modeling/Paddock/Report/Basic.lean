import Paddock.Command.Value
import Paddock.Garage
import Paddock.Json.Printer
import Paddock.Terminal

/-!
Reports: what a command shows, as lines for people and perhaps as a value for programs.
-/
namespace Paddock

/-- A report without a value is shown by its lines in either format. The complaint is what makes a
command fail although it has something to show. -/
structure Report where
  lines : List Line
  view : Option Json := none
  complaint : Option String := none

namespace Report

def render (format : Command.OutputFormat) (colours : Bool) (r : Report) : String :=
  match format, r.view with
  | .json, some value => Json.indented value ++ "\n"
  | _, _ => renderLines colours r.lines

def tick : Piece := .vivid .green "✓"

/-- Says that something was done. -/
def done (line : Line) : Line := tick :: " " :: line

/-- A report that consists of saying that something was done. -/
def ofDone (line : Line) : Report := { lines := [done line] }

/-! ### Parts and cars -/

def statColumns (stats : PartStats) : String :=
  let column (stat : UInt8) := padLeft 3 (toString stat.toNat)
  s!"{column stats.first} {column stats.second} {column stats.third}"

def partRow (part : Part) : String :=
  s!"{padRight 10 (toString part.id)} {padRight 12 part.kind.name} {statColumns part.spec.stats}"

def slotLabel : Option PartId → Piece
  | some id => toString id
  | none => .dimmed "(empty)"

def drivingLine (s : DrivingStats) : Line := [
  s!"  Speed {s.speed.toNat}  Max speed {s.maxSpeed.toNat}  Acceleration {s.acceleration.toNat}",
  s!"  Handling {s.handling.toNat}  Drift {s.drift.toNat}  Turn {s.turn.toNat}"]

def carHeading (m : CarMetadata) : List Line := [
  [.vivid .yellow (toString m.car), s!"  owner {m.owner}"],
  ["  Image: ", .coloured .blue m.image],
  [s!"  Condition: {m.stats.condition.toNat}"]]

def slotLine (p : SlotPart) : Line := [s!"  [{p.slot.slot}] {partRow p.part}"]

def carLines (m : CarMetadata) : List Line :=
  carHeading m ++ m.parts.map slotLine ++ [drivingLine m.stats.stats]

end Report

end Paddock
