import Paddock.Workshop

/-!
The leaderboard: the best score of each car. Of equal scores the one reached first ranks higher.
-/
namespace Paddock

/-- `achieved` numbers the result that set the score among all results. -/
structure ScoreEntry where
  car : CarId
  score : UInt64
  achieved : UInt64
deriving DecidableEq, Repr

structure Leaderboard where
  authority : Option AccountId
  best : Table CarId ScoreEntry
  nextResult : UInt64
deriving DecidableEq

/-- Whether one entry stands before another. -/
def ScoreEntry.precedes (a b : ScoreEntry) : Bool :=
  b.score < a.score || (a.score == b.score && a.achieved ≤ b.achieved)

namespace Leaderboard

def empty : Leaderboard := ⟨none, Table.empty, 0⟩

def isAuthorized (l : Leaderboard) (caller operator : AccountId) : Bool :=
  caller == operator || l.authority == some caller

def improves (l : Leaderboard) (car : CarId) (score : UInt64) : Bool :=
  match l.best.get? car with
  | some entry => entry.score < score
  | none => true

/-- Whether a result may be recorded. -/
def checkResult (l : Leaderboard) (cars : CarRegistry) (caller operator : AccountId) (car : CarId) :
    Except WorkshopError Unit := do
  if !l.isAuthorized caller operator then throw (.unauthorized caller)
  let _ ← cars.get car

/-- Records a result, and says whether it is the car's best so far. An equal score is not. Every result
is counted. -/
def recordInPlace (cars : CarRegistry) (caller operator : AccountId) (car : CarId) (score : UInt64) :
    Change WorkshopError Leaderboard Bool := do
  Change.check (·.checkResult cars caller operator car)
  let achieved := (← get).nextResult
  modify fun l => { l with nextResult := l.nextResult + 1 }
  if (← get).improves car score then
    modify fun l => { l with best := l.best.insert car ⟨car, score, achieved⟩ }
    return true
  else return false

def record (l : Leaderboard) (cars : CarRegistry) (caller operator : AccountId) (car : CarId)
    (score : UInt64) : Except WorkshopError (Bool × Leaderboard) :=
  (recordInPlace cars caller operator car score).outcome l

def bestScore? (l : Leaderboard) (car : CarId) : Option UInt64 :=
  (l.best.get? car).map ScoreEntry.score

/-- Every entry, best first. -/
def ranking (l : Leaderboard) : List ScoreEntry := l.best.values.mergeSort ScoreEntry.precedes

def top (l : Leaderboard) (n : Nat) : List ScoreEntry := l.ranking.take n

/-- The place of a car, counted from one. -/
def rank? (l : Leaderboard) (car : CarId) : Option Nat :=
  (l.ranking.findIdx? (·.car == car)).map (· + 1)

end Leaderboard

open Json

instance : Encode ScoreEntry where
  encode e := .object [
    ("car_id", encode e.car),
    ("score", encode e.score),
    ("achieved_seq", encode e.achieved)]

instance : Decode ScoreEntry where
  decode? j :=
    match fields? [["car_id"], ["score"], ["achieved_seq"]] j with
    | some [car, score, achieved] => do
      let car ← required car
      let score ← required score
      let achieved ← required achieved
      return ⟨car, score, achieved⟩
    | _ => none

instance : Encode Leaderboard where
  encode l := .object [
    ("authority", encode l.authority),
    ("best", encode l.best),
    ("next_seq", encode l.nextResult)]

instance : Decode Leaderboard where
  decode? j :=
    match fields? [["authority"], ["best"], ["next_seq"]] j with
    | some [authority, best, nextResult] => do
      let authority ← orNull authority
      let best ← required best
      let nextResult ← required nextResult
      return ⟨authority, best, nextResult⟩
    | _ => none

end Paddock
