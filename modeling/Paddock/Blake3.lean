import Paddock.Digest

/-!
The BLAKE3 hash with a digest of thirty-two bytes. A message is cut into chunks of 1024 bytes, the
chunks are the leaves of a binary tree whose left subtrees are full, and the root is compressed
with a flag of its own.
-/
namespace Paddock.Blake3

abbrev Word := UInt32

/-- The eight words that one compression hands to the next. -/
abbrev Chaining := Vector Word 8

abbrev Block := Vector Word 16

def initial : Chaining :=
  #v[0x6A09E667, 0xBB67AE85, 0x3C6EF372, 0xA54FF53A, 0x510E527F, 0x9B05688C, 0x1F83D9AB, 0x5BE0CD19]

def chunkStart : Word := 1
def chunkEnd : Word := 2
def parent : Word := 4
def root : Word := 8

/-- The place that each word of the message takes in the next round. -/
def permutation : Vector (Fin 16) 16 :=
  #v[2, 6, 3, 10, 7, 0, 4, 13, 1, 11, 12, 5, 9, 14, 15, 8]

def permute (m : Block) : Block :=
  permutation.map fun i => m[i]

def rotateRight (w : Word) (n : Word) : Word :=
  (w >>> n) ||| (w <<< (32 - n))

/-- Mixes two words of the message into four words of the state. -/
def mix (v : Block) (a b c d : Fin 16) (x y : Word) : Block :=
  let v := v.set a (v[a] + v[b] + x)
  let v := v.set d (rotateRight (v[d] ^^^ v[a]) 16)
  let v := v.set c (v[c] + v[d])
  let v := v.set b (rotateRight (v[b] ^^^ v[c]) 12)
  let v := v.set a (v[a] + v[b] + y)
  let v := v.set d (rotateRight (v[d] ^^^ v[a]) 8)
  let v := v.set c (v[c] + v[d])
  v.set b (rotateRight (v[b] ^^^ v[c]) 7)

/-- Four columns, then four diagonals. -/
def round (v m : Block) : Block :=
  let v := mix v 0 4 8 12 m[0] m[1]
  let v := mix v 1 5 9 13 m[2] m[3]
  let v := mix v 2 6 10 14 m[4] m[5]
  let v := mix v 3 7 11 15 m[6] m[7]
  let v := mix v 0 5 10 15 m[8] m[9]
  let v := mix v 1 6 11 12 m[10] m[11]
  let v := mix v 2 7 8 13 m[12] m[13]
  mix v 3 4 9 14 m[14] m[15]

def rounds : Nat → Block → Block → Block
  | 0, v, _ => v
  | n + 1, v, m => rounds n (round v m) (permute m)

/-- The first eight words of the compressed state. -/
def compress (cv : Chaining) (m : Block) (counter : UInt64) (length flags : Word) : Chaining :=
  let v : Block :=
    #v[cv[0], cv[1], cv[2], cv[3], cv[4], cv[5], cv[6], cv[7],
      initial[0], initial[1], initial[2], initial[3],
      counter.toUInt32, (counter >>> 32).toUInt32, length, flags]
  let v := rounds 7 v m
  #v[v[0] ^^^ v[8], v[1] ^^^ v[9], v[2] ^^^ v[10], v[3] ^^^ v[11],
    v[4] ^^^ v[12], v[5] ^^^ v[13], v[6] ^^^ v[14], v[7] ^^^ v[15]]

/-- The little-endian word at the head of a list of bytes, which is taken to go on with zeros. -/
def wordOf : List UInt8 → Word
  | a :: b :: c :: d :: _ =>
    a.toUInt32 ||| (b.toUInt32 <<< 8) ||| (c.toUInt32 <<< 16) ||| (d.toUInt32 <<< 24)
  | [a, b, c] => a.toUInt32 ||| (b.toUInt32 <<< 8) ||| (c.toUInt32 <<< 16)
  | [a, b] => a.toUInt32 ||| (b.toUInt32 <<< 8)
  | [a] => a.toUInt32
  | [] => 0

def blockOf (bytes : List UInt8) : Block :=
  Vector.ofFn fun i => wordOf (bytes.drop (4 * i.val))

def bytesOf (w : Word) : List UInt8 :=
  [w.toUInt8, (w >>> 8).toUInt8, (w >>> 16).toUInt8, (w >>> 24).toUInt8]

/-- The last compression of a subtree, held back until it is known whether it is the root. -/
structure Output where
  cv : Chaining
  block : Block
  counter : UInt64
  length : Word
  flags : Word

def Output.chaining (o : Output) : Chaining :=
  compress o.cv o.block o.counter o.length o.flags

/-- The blocks of one chunk, one after the other. -/
def chunk (counter : UInt64) (cv : Chaining) (flags : Word) (bytes : List UInt8) : Output :=
  if 64 < bytes.length then
    chunk counter (compress cv (blockOf (bytes.take 64)) counter 64 flags) 0 (bytes.drop 64)
  else ⟨cv, blockOf bytes, counter, bytes.length.toUInt32, flags ||| chunkEnd⟩
termination_by bytes.length
decreasing_by simp only [List.length_drop]; omega

/-- Bytes in the left subtree: the most whole chunks that are a power of two and leave some. -/
def leftLength (length : Nat) : Nat :=
  1 <<< (length - 1).log2

theorem leftLength_lt {n : Nat} (h : 1024 < n) : leftLength n < n := by
  have := Nat.log2_self_le (n := n - 1) (by omega)
  rw [leftLength, Nat.one_shiftLeft]
  omega

theorem leftLength_pos (n : Nat) : 0 < leftLength n := by
  rw [leftLength, Nat.one_shiftLeft]
  exact Nat.two_pow_pos _

/-- The tree over some bytes, its chunks numbered from `first`. -/
def tree (first : Nat) (bytes : List UInt8) : Output :=
  if 1024 < bytes.length then
    let cut := leftLength bytes.length
    let left := (tree first (bytes.take cut)).chaining
    let right := (tree (first + cut / 1024) (bytes.drop cut)).chaining
    ⟨initial, left ++ right, 0, 64, parent⟩
  else chunk first.toUInt64 initial chunkStart bytes
termination_by bytes.length
decreasing_by
  · have := leftLength_lt (n := bytes.length) (by assumption)
    simp only [List.length_take]; omega
  · have := leftLength_pos bytes.length
    simp only [List.length_drop]; omega

/-- The words of a chaining value, little end first. -/
def digestBytes (cv : Chaining) : List UInt8 :=
  bytesOf cv[0] ++ bytesOf cv[1] ++ bytesOf cv[2] ++ bytesOf cv[3] ++
    bytesOf cv[4] ++ bytesOf cv[5] ++ bytesOf cv[6] ++ bytesOf cv[7]

def hash : Hasher := fun message =>
  let o := tree 0 message
  ⟨digestBytes (compress o.cv o.block 0 o.length (o.flags ||| root)), rfl⟩

end Paddock.Blake3
