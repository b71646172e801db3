/-!
Punycode: text in letters, digits and hyphens alone. The characters of ASCII come first; the others
follow in the order of their code points, each as the number of steps since the one before.
-/
namespace Paddock.Text.Punycode

/-- The digits of base thirty-six: letters, then decimal digits. -/
def digit (n : Nat) : Char := if n < 26 then Char.ofNat (97 + n) else Char.ofNat (22 + n)

/-- From what value on a digit at some position is not the last one. -/
def threshold (position bias : Nat) : Nat := min 26 (max 1 (36 * position - bias))

theorem threshold_pos (position bias : Nat) : 0 < threshold position bias := by
  unfold threshold
  omega

/-- A number, its digits by rising weight. Positions count from one. -/
def number (bias position n : Nat) : List Char :=
  if n < threshold position bias then [digit n]
  else
    let t := threshold position bias
    digit (t + (n - t) % (36 - t)) :: number bias (position + 1) ((n - t) / (36 - t))
termination_by n
decreasing_by
  have hp := threshold_pos position bias
  have hle := Nat.div_le_self (n - threshold position bias) (36 - threshold position bias)
  omega

def shrink (steps n : Nat) : Nat × Nat :=
  if 455 < n then shrink (steps + 36) (n / 35) else (steps, n)
termination_by n

/-- The bias after a number: `count` characters are placed by now. -/
def adapt (isFirst : Bool) (count n : Nat) : Nat :=
  let n := if isFirst then n / 700 else n / 2
  let (steps, n) := shrink 0 (n + n / count)
  steps + 36 * n / (n + 38)

/-- What has been written, the steps since then, and how many characters are placed. -/
structure State where
  output : List Char
  steps : Nat
  bias : Nat
  placed : Nat
  isFirst : Bool

/-- Passes one character of the text on the way to the next one with that code point. -/
def State.pass (s : State) (point : Nat) (c : Char) : State :=
  if c.toNat < point then { s with steps := s.steps + 1 }
  else if c.toNat = point then
    ⟨s.output ++ number s.bias 1 s.steps, 0, adapt s.isFirst (s.placed + 1) s.steps, s.placed + 1,
      false⟩
  else s

/-- Places all characters with a code point; the steps there go from the code point before. -/
def State.place (text : List Char) (s : State × Nat) (point : Nat) : State × Nat :=
  let jump := (point - s.2) * (s.1.placed + 1)
  let s := text.foldl (State.pass · point ·) { s.1 with steps := s.1.steps + jump }
  ({ s with steps := s.steps + 1 }, point + 1)

def isAscii (c : Char) : Bool := c.toNat < 0x80

def encode (text : List Char) : List Char :=
  let ascii := text.filter isAscii
  let points := ((text.filter (!isAscii ·)).map Char.toNat).eraseDups.mergeSort
  let first := if ascii.isEmpty then [] else ascii ++ ['-']
  (points.foldl (State.place text) (⟨first, 0, 72, ascii.length, true⟩, 0x80)).1.output

/-- A label of a host's name. What is written in punycode is marked. -/
def label (text : List Char) : List Char :=
  if text.all isAscii then text else ['x', 'n', '-', '-'] ++ encode text

end Paddock.Text.Punycode
