import Paddock.Cause
import Paddock.Change
import Paddock.Path

/-!
The disk as far as a program needs it: what stands at each place. A path leads to a place step by
step, each step being taken from a directory. What has been put at the end of a path is read back
from there.
-/
namespace Paddock

/-- A place by the names that lead to it, the innermost first. Only the names at the very end, on the
way up from the working directory, are `..`. -/
structure Place where
  absolute : Bool
  names : List (List Char)
deriving DecidableEq, Repr

namespace Place

/-- The place that paths start from. -/
def start (path : String) : Place := ⟨Path.isAbsolute path, []⟩

/-- One step along a path. -/
def enter (place : Place) (segment : List Char) : Place :=
  if Path.isIdle segment then place
  else if segment = Path.up then
    match place.names with
    | [] => if place.absolute then place else { place with names := [Path.up] }
    | name :: rest =>
      { place with names := if name = Path.up then Path.up :: name :: rest else rest }
  else { place with names := segment :: place.names }

/-- The place that a path names if there is a directory before each of its steps. -/
def ofPath (path : String) : Place := (Path.segments path).foldl enter (start path)

/-- The names of the places that a place lies in, the innermost first. -/
def enclosing : List (List Char) → List (List (List Char))
  | [] => []
  | _ :: names => names :: enclosing names

def isWithin (p outer : Place) : Bool :=
  p.absolute == outer.absolute && (enclosing p.names).contains outer.names

/-- The root, the working directory and all above it. -/
def isOuter (p : Place) : Bool := p.names.all (· == Path.up)

/-- The place beside this one with so many marks behind its name. -/
def marked (p : Place) (count : Nat) : Place :=
  match p.names with
  | [] => p
  | name :: rest => { p with names := (name ++ List.replicate count '~') :: rest }

end Place

/-! ### Entries -/

inductive DiskEntry where
  | file (content : String)
  | directory
  | unreadable (fault : SystemFault)
deriving DecidableEq, Repr

structure Disk where
  entries : List (Place × DiskEntry)
deriving DecidableEq, Repr

namespace Disk

def empty : Disk := ⟨[]⟩

/-- What is at a place. A place that something else lies in is a directory. -/
def lookup? (d : Disk) (place : Place) : Option DiskEntry :=
  if place.isOuter then some .directory
  else
    match d.entries.find? (·.1 == place) with
    | some (_, entry) => some entry
    | none => if d.entries.any fun e => e.1.isWithin place then some .directory else none

def put (d : Disk) (place : Place) (entry : DiskEntry) : Disk :=
  ⟨(place, entry) :: d.entries.filter (·.1 != place)⟩

def remove (d : Disk) (place : Place) : Disk := ⟨d.entries.filter (·.1 != place)⟩

/-- What is at one place is then at the other, instead of what was there. -/
def move (d : Disk) (source target : Place) : Disk :=
  match d.lookup? source with
  | some entry => (d.remove source).put target entry
  | none => d

/-- A disk that holds these files. -/
def ofFiles (files : List (String × String)) : Disk :=
  files.foldl (fun d file => d.put (.ofPath file.1) (.file file.2)) empty

/-- Only from a directory does a path lead on. -/
def ensureDirectory (d : Disk) (place : Place) : Except SystemFault Unit :=
  match d.lookup? place with
  | some .directory => .ok ()
  | some (.file _) => .error .notDirectory
  | some (.unreadable fault) => .error fault
  | none => .error .notFound

def step (d : Disk) (place : Place) (segment : List Char) : Except SystemFault Place :=
  match d.ensureDirectory place with
  | .ok () => if Path.isLongName segment then .error .nameTooLong else .ok (place.enter segment)
  | .error fault => .error fault

def walk (d : Disk) (place : Place) (segments : List (List Char)) : Except SystemFault Place :=
  segments.foldlM d.step place

/-- The place that a path leads to, where there need not be anything. -/
def locate (d : Disk) (path : String) : Except SystemFault Place :=
  if Path.hasNul path then .error .nulInPath
  else if Path.isLong path then .error .nameTooLong
  else if path.isEmpty then .error .notFound
  else d.walk (.start path) (Path.segments path)

def find (d : Disk) (path : String) : Except SystemFault DiskEntry := do
  let place ← d.locate path
  match d.lookup? place with
  | some entry => .ok entry
  | none => .error .notFound

def contains (d : Disk) (path : String) : Bool := (d.find path).isOk

/-- The text of a file. -/
def read (d : Disk) (path : String) : Except SystemFault String :=
  match d.find path with
  | .ok (.file content) => .ok content
  | .ok .directory => .error .isDirectory
  | .ok (.unreadable fault) => .error fault
  | .error fault => .error fault

/-! ### Putting files in place -/

/-- All names of places. -/
def names (d : Disk) : List (List Char) := d.entries.flatMap (·.1.names)

/-- This place or, if there is something, one beside it where there is nothing. -/
def free (d : Disk) (place : Place) : Place :=
  let count := (List.range (d.names.length + 1)).find? fun count => (d.lookup? (place.marked count)).isNone
  place.marked (count.getD 0)

/-- Where a draft can stand in the directory of that path. -/
def placeDraft (d : Disk) (directory : String) : Except SystemFault Place :=
  (d.locate (Path.draftIn directory)).map d.free

/-- Begins a new file, at a place that is then known. -/
def createDraft (directory : String) : Change SystemFault Disk Place := do
  let place ← .check (·.placeDraft directory)
  modify (·.put place (.file ""))
  return place

/-- Where a path leads by its last name, which may not be that of a directory. -/
def target (d : Disk) (path : String) : Except SystemFault Place :=
  if Path.hasNul path then .error .invalidArgument
  else if Path.isLong path then .error .nameTooLong
  else
    match Path.split? path with
    | none => .error .busy
    | some (way, name) => do
      let directory ← d.walk (.start path) way
      let place ← d.step directory name
      if name = ['.'] ∨ name = Path.up then .error .busy
      else if Path.endsInSlash path then .error .notDirectory
      else
        match d.lookup? place with
        | some .directory => .error .isDirectory
        | _ => .ok place

/-- Moves a file to the end of a path, instead of a file that may be there. -/
def rename (source : Place) (path : String) : Change SystemFault Disk Unit := do
  let place ← .check (·.target path)
  modify (·.move source place)

/-- Gives a draft its path. If that fails, there is no draft any more. -/
def persist (draft : Place) (path : String) : Change SystemFault Disk Unit :=
  (rename draft path).tidied (·.remove draft)

/-! ### After a change -/

theorem lookup?_put_self (d : Disk) {place : Place} (entry : DiskEntry) (h : place.isOuter = false) :
    (d.put place entry).lookup? place = some entry := by
  simp [lookup?, put, h]

theorem find?_put_of_ne (d : Disk) {place other : Place} (entry : DiskEntry) (h : other ≠ place) :
    (d.put place entry).entries.find? (·.1 == other) = d.entries.find? (·.1 == other) := by
  have hne : (place == other) = false := by simpa using Ne.symm h
  simp only [put, List.find?_cons, hne, List.find?_filter]
  congr 1
  funext e
  by_cases he : e.1 = other <;> simp [he, h]

theorem any_isWithin_put (d : Disk) {place other : Place} (entry : DiskEntry)
    (h : d.entries.any (·.1.isWithin other) = true) :
    (d.put place entry).entries.any (·.1.isWithin other) = true := by
  obtain ⟨e, he, hw⟩ := List.any_eq_true.1 h
  by_cases hp : e.1 = place
  · simp [put, ← hp, hw]
  · exact List.any_eq_true.2 ⟨e, by simp [put, he, hp], hw⟩

/-- Directories stay where they are. -/
theorem lookup?_put_directory (d : Disk) {place other : Place} (entry : DiskEntry)
    (h : other ≠ place) (hd : d.lookup? other = some .directory) :
    (d.put place entry).lookup? other = some .directory := by
  unfold lookup? at hd ⊢
  rw [find?_put_of_ne d entry h]
  split
  · rfl
  next hout =>
    simp only [hout, Bool.false_eq_true, if_false] at hd
    split
    next e he => simpa [he] using hd
    next he =>
      have hany : d.entries.any (·.1.isWithin other) = true := by simpa [he] using hd
      rw [if_pos (any_isWithin_put d entry hany)]

theorem lookup?_of_ensureDirectory {d : Disk} {place : Place} (h : d.ensureDirectory place = .ok ()) :
    d.lookup? place = some .directory := by
  unfold ensureDirectory at h
  split at h <;> simp_all

theorem step_put {d : Disk} {place p q : Place} {segment : List Char} (entry : DiskEntry)
    (hp : d.lookup? place ≠ some .directory) (h : d.step p segment = .ok q) :
    (d.put place entry).step p segment = .ok q := by
  unfold step at h ⊢
  cases he : d.ensureDirectory p with
  | error fault => simp [he] at h
  | ok u =>
    have hd := lookup?_of_ensureDirectory he
    have hne : p ≠ place := fun hpp => hp (hpp ▸ hd)
    rw [he] at h
    simpa [ensureDirectory, lookup?_put_directory d entry hne hd] using h

/-- What is put where there is no directory is in the way of no walk. -/
theorem walk_put {d : Disk} {place p q : Place} {segments : List (List Char)} (entry : DiskEntry)
    (hp : d.lookup? place ≠ some .directory) (h : d.walk p segments = .ok q) :
    (d.put place entry).walk p segments = .ok q := by
  induction segments generalizing p with
  | nil => exact h
  | cons segment segments ih =>
    unfold walk at h ⊢
    rw [List.foldlM_cons] at h ⊢
    cases hs : d.step p segment with
    | error fault => simp [hs, bind, Except.bind] at h
    | ok r =>
      rw [step_put entry hp hs]
      rw [hs] at h
      exact ih h

theorem locate_put {d : Disk} {place q : Place} {path : String} (entry : DiskEntry)
    (hp : d.lookup? place ≠ some .directory) (h : d.locate path = .ok q) :
    (d.put place entry).locate path = .ok q := by
  unfold locate at h ⊢
  split at h
  · simp at h
  split at h
  · simp at h
  split at h
  · simp at h
  simp_all [walk_put]

/-- A path leads to its target, which is no directory. -/
theorem locate_of_target {d : Disk} {path : String} {place : Place} (h : d.target path = .ok place) :
    d.locate path = .ok place ∧ d.lookup? place ≠ some .directory := by
  unfold target at h
  split at h
  · simp at h
  next hnul =>
  split at h
  · simp at h
  next hlong =>
  split at h
  · simp at h
  next way name hsplit =>
  cases hw : d.walk (.start path) way with
  | error fault => simp [hw, bind, Except.bind] at h
  | ok directory =>
  cases hst : d.step directory name with
  | error fault => simp [hw, hst, bind, Except.bind] at h
  | ok place =>
  simp only [hw, hst, bind, Except.bind] at h
  split at h
  · simp at h
  split at h
  · simp at h
  next hslash =>
  split at h
  · simp at h
  next hdir =>
  cases h
  refine ⟨?_, hdir⟩
  have hempty := Path.ne_empty_of_split? hsplit
  have hsegments := Path.segments_eq_of_split? hsplit (by simpa using hslash)
  unfold walk at hw
  simp [locate, hnul, hlong, hempty, hsegments, walk, List.foldlM_append, hw, hst, bind, Except.bind,
    pure, Except.pure]

/-- What is written where a path leads is read from there. -/
theorem read_put {d : Disk} {path : String} {place : Place} (hl : d.locate path = .ok place)
    (hdir : d.lookup? place ≠ some .directory) (content : String) :
    (d.put place (.file content)).read path = .ok content := by
  have hout : place.isOuter = false := by
    cases hc : place.isOuter with
    | false => rfl
    | true => simp [lookup?, hc] at hdir
  simp [read, find, locate_put _ hdir hl, lookup?_put_self _ _ hout, bind, Except.bind]

end Disk

end Paddock
