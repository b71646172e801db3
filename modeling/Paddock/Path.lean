import Paddock.Text.Fields

/-!
Paths: names between slashes, from the working directory or from the root.
-/
namespace Paddock.Path

def segments (path : String) : List (List Char) := Text.fields '/' path.toList

/-- A segment that leads nowhere else. -/
def isIdle (segment : List Char) : Bool := segment.isEmpty || segment == ['.']

/-- The segment that leads to the directory around. -/
def up : List Char := ['.', '.']

def isAbsolute (path : String) : Bool := path.toList.head? == some '/'

def join (first : List Char) (rest : List (List Char)) : String :=
  String.ofList (rest.foldl (fun text segment => text ++ '/' :: segment) first)

/-- The paths of all that a path leads through, itself included. -/
def prefixes (path : String) : List String :=
  match segments path with
  | [] => []
  | first :: rest => (List.range (rest.length + 1)).map fun n => join first (rest.take n)

/-- The path of the directory that a path leads through last. -/
def parent (path : String) : String :=
  match segments path with
  | [] => "."
  | first :: rest =>
    match rest.reverse.dropWhile isIdle with
    | [] => "."
    | _ :: rest =>
      match (rest.dropWhile isIdle).reverse with
      | [] => if first.isEmpty then "/" else String.ofList first
      | rest => join first rest

/-- The segments on the way to the last name, and that name. Slashes behind it are left out. -/
def split? (path : String) : Option (List (List Char) × List Char) :=
  match (segments path).reverse.dropWhile List.isEmpty with
  | [] => none
  | name :: way => some (way.reverse, name)

/-- Whether slashes follow the last name. -/
def endsInSlash (path : String) : Bool := (segments path).getLast? == some []

theorem segments_eq_of_split? {path : String} {way : List (List Char)} {name : List Char}
    (h : split? path = some (way, name)) (hs : endsInSlash path = false) :
    segments path = way ++ [name] := by
  unfold split? at h
  unfold endsInSlash at hs
  rw [List.getLast?_eq_head?_reverse] at hs
  cases hr : (segments path).reverse with
  | nil => simp [hr] at h
  | cons last before =>
    have hne : last ≠ [] := by simpa [hr] using hs
    rw [hr, List.dropWhile_cons_of_neg (by simpa using hne)] at h
    simp only [Option.some.injEq, Prod.mk.injEq] at h
    obtain ⟨rfl, rfl⟩ := h
    simpa using congrArg List.reverse hr

theorem ne_empty_of_split? {path : String} {last : List (List Char) × List Char}
    (h : split? path = some last) : path.isEmpty = false := by
  cases he : path.isEmpty with
  | false => rfl
  | true =>
    have hp : path = "" := by simpa using he
    subst hp
    simp [split?, segments, Text.fields] at h

/-- The path of a file that is still being written, in a directory. Its name has ten characters. -/
def draftIn (directory : String) : String := directory ++ "/.draft.new"

/-! ### What a path can be -/

/-- How many bytes a name may have. -/
def maxNameBytes : Nat := 255

/-- How many bytes a path may have. -/
def maxBytes : Nat := 4095

def isLongName (segment : List Char) : Bool :=
  maxNameBytes < (String.ofList segment).utf8ByteSize

def isLong (path : String) : Bool := maxBytes < path.utf8ByteSize

def hasNul (path : String) : Bool := path.toList.contains '\x00'

end Paddock.Path
