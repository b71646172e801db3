import Paddock.Hex

/-!
Digests of thirty-two bytes, and the functions that make them. Nothing that only links or compares
digests depends on which function it is.
-/
namespace Paddock

structure Digest where
  bytes : List UInt8
  length_bytes : bytes.length = 32
deriving DecidableEq, Repr

/-- A function from messages to digests. -/
abbrev Hasher := List UInt8 → Digest

namespace Digest

def ofBytes? (bytes : List UInt8) : Option Digest :=
  if h : bytes.length = 32 then some ⟨bytes, h⟩ else none

def toHex (digest : Digest) : String :=
  String.ofList (Hex.encode digest.bytes)

/-- Reads exactly sixty-four hexadecimal digits. -/
def ofHex? (text : String) : Option Digest :=
  match Hex.decode (utf8 text) with
  | .ok bytes => ofBytes? bytes
  | .error _ => none

/-- The number that a digest spells, most significant byte first. -/
def number (bytes : List UInt8) : Nat :=
  bytes.foldr (fun byte n => byte.toNat + 256 * n) 0

theorem number_inj {a b : List UInt8} (hl : a.length = b.length) (h : number a = number b) :
    a = b := by
  induction a generalizing b with
  | nil => exact (List.length_eq_zero_iff.mp hl.symm).symm
  | cons x a ih =>
    cases b with
    | nil => simp at hl
    | cons y b =>
      simp only [number, List.foldr_cons] at h
      have hx := x.toNat_lt
      have hy := y.toNat_lt
      have hxy : x = y := UInt8.toNat_inj.mp (by omega)
      rw [hxy, ih (by simpa using hl) (by unfold number; omega)]

/-- Digests are ordered as their bytes are, first byte first. -/
def rank (digest : Digest) : Nat :=
  number digest.bytes.reverse

theorem rank_inj {a b : Digest} (h : a.rank = b.rank) : a = b := by
  obtain ⟨a, ha⟩ := a
  obtain ⟨b, hb⟩ := b
  have := number_inj (by simp [ha, hb]) h
  simpa using this

end Digest

end Paddock
