import Paddock.Part.Registry

/-!
Driving stats: the sums of what the parts of a car contribute, scaled by its condition.
-/
namespace Paddock

structure DrivingStats where
  speed : UInt16
  acceleration : UInt16
  handling : UInt16
  drift : UInt16
  turn : UInt16
  maxSpeed : UInt16
deriving DecidableEq, Repr

namespace DrivingStats

def zero : DrivingStats := ⟨0, 0, 0, 0, 0, 0⟩

/-- Engine and transmission drive the car, wheels steer it. -/
def contribution (spec : PartSpec) : DrivingStats :=
  let first := spec.stats.first.toUInt16
  let second := spec.stats.second.toUInt16
  let third := spec.stats.third.toUInt16
  match spec.kind with
  | .engine | .transmission => { zero with speed := first, maxSpeed := second, acceleration := third }
  | .wheels => { zero with handling := first, drift := second, turn := third }

def map₂ (f : UInt16 → UInt16 → UInt16) (a b : DrivingStats) : DrivingStats :=
  ⟨f a.speed b.speed, f a.acceleration b.acceleration, f a.handling b.handling, f a.drift b.drift,
    f a.turn b.turn, f a.maxSpeed b.maxSpeed⟩

def map (f : UInt16 → UInt16) (a : DrivingStats) : DrivingStats := map₂ (fun x _ => f x) a a

/-- The sums over the slots; an empty slot contributes nothing. -/
def nominal (slots : PerType (Option PartSpec)) : DrivingStats :=
  (slots.toList.filterMap id).foldl (fun sum spec => map₂ (· + ·) sum (contribution spec)) zero

/-- The whole part of `value * condition / max`. A condition above the greatest counts as it. -/
def scale (condition max : UInt8) (value : UInt16) : UInt16 :=
  let condition := if max < condition then max else condition
  (value.toUInt32 * condition.toUInt32 / max.toUInt32).toUInt16

def scaled (stats : DrivingStats) (condition max : UInt8) : DrivingStats :=
  if max = 0 then zero else stats.map (scale condition max)

end DrivingStats

/-- What a car shows of its stats. -/
structure CarStats where
  image : String
  stats : DrivingStats
  condition : UInt8
deriving DecidableEq, Repr

open Json

def DrivingStats.members (s : DrivingStats) : List (Name × Json) := [
  ("speed", encode s.speed),
  ("acceleration", encode s.acceleration),
  ("handling", encode s.handling),
  ("driftFactor", encode s.drift),
  ("turnFactor", encode s.turn),
  ("maxSpeed", encode s.maxSpeed)]

instance : Encode DrivingStats := ⟨fun s => .object s.members⟩

instance : Encode CarStats where
  encode c :=
    let condition : Name × Json := ("condition", encode c.condition)
    .object (("imageURI", encode c.image) :: (c.stats.members ++ [condition]))

end Paddock
