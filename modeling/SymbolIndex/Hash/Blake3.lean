import SymbolIndex.Hash.LittleEndian

/-!
# `SymbolIndex.Hash.Blake3` — the BLAKE3 hash of a byte string

The plain (unkeyed) hash. A byte string is cut into chunks of 1024 bytes, a chunk into blocks of 64
bytes. Chunks are the leaves of a binary tree whose left subtrees are complete; the digest is the
chaining value of the root, compressed with the root flag.

## Contents
- **Words.** The sixteen little-endian words of a block.
- **Compression.** `compress`, seven rounds of `mix` over a state of sixteen words.
- **Tree.** `Pending`, a compression that has not been run because only its parent knows whether it
  is the root; `chunk`, `subtree` and the public `digest`.
-/

namespace SymbolIndex.Hash.Blake3

/-! ## Words -/

abbrev Words (n : Nat) := Vector UInt32 n

/-- The `i`-th four-byte word of a block; bytes past the end count as zero. -/
def wordAt (bytes : List UInt8) (i : Nat) : UInt32 :=
  (LittleEndian.decode ((bytes.drop (4 * i)).take 4)).toUInt32

/-- A block of at most 64 bytes as sixteen words. -/
def blockWords (bytes : List UInt8) : Words 16 :=
  Vector.ofFn fun i => wordAt bytes i.val

/-! ## Compression -/

/-- The initial chaining value. -/
def initial : Words 8 :=
  #v[0x6A09E667, 0xBB67AE85, 0x3C6EF372, 0xA54FF53A, 0x510E527F, 0x9B05688C, 0x1F83D9AB, 0x5BE0CD19]

/-- Where each message word of the next round comes from. -/
def schedule : Vector (Fin 16) 16 :=
  #v[2, 6, 3, 10, 7, 0, 4, 13, 1, 11, 12, 5, 9, 14, 15, 8]

def rotateRight (w : UInt32) (n : UInt32) : UInt32 :=
  (w >>> n) ||| (w <<< (32 - n))

/-- Mixes two message words into the four state words at `a`, `b`, `c` and `d`. -/
def mix (s : Words 16) (a b c d : Fin 16) (x y : UInt32) : Words 16 :=
  let a₁ := s[a] + s[b] + x
  let d₁ := rotateRight (s[d] ^^^ a₁) 16
  let c₁ := s[c] + d₁
  let b₁ := rotateRight (s[b] ^^^ c₁) 12
  let a₂ := a₁ + b₁ + y
  let d₂ := rotateRight (d₁ ^^^ a₂) 8
  let c₂ := c₁ + d₂
  let b₂ := rotateRight (b₁ ^^^ c₂) 7
  (((s.set a a₂).set b b₂).set c c₂).set d d₂

/-- One round: the four columns of the state, then its four diagonals. -/
def round (s : Words 16) (m : Words 16) : Words 16 :=
  let s := mix s 0 4 8 12 m[0] m[1]
  let s := mix s 1 5 9 13 m[2] m[3]
  let s := mix s 2 6 10 14 m[4] m[5]
  let s := mix s 3 7 11 15 m[6] m[7]
  let s := mix s 0 5 10 15 m[8] m[9]
  let s := mix s 1 6 11 12 m[10] m[11]
  let s := mix s 2 7 8 13 m[12] m[13]
  mix s 3 4 9 14 m[14] m[15]

/-- Several rounds, the message reordered after each. -/
def rounds : Nat → Words 16 → Words 16 → Words 16
  | 0, s, _ => s
  | n + 1, s, m => rounds n (round s m) (schedule.map fun i => m[i])

/-- A compression that has not been run: only its parent knows whether it is the root. -/
structure Pending where
  chaining : Words 8
  block : Words 16
  counter : Nat
  length : Nat
  flags : UInt32

def chunkStart : UInt32 := 1
def chunkEnd : UInt32 := 2
def parentFlag : UInt32 := 4
def rootFlag : UInt32 := 8

/-- Runs a compression with extra flags and gives the new chaining value. -/
def Pending.compress (p : Pending) (extra : UInt32) : Words 8 :=
  let tail : Words 8 :=
    #v[initial[0], initial[1], initial[2], initial[3], p.counter.toUInt32, (p.counter / 0x100000000).toUInt32,
      p.length.toUInt32, p.flags ||| extra]
  let s := rounds 7 (p.chaining ++ tail) p.block
  Vector.ofFn fun i : Fin 8 => s[i.val] ^^^ s[i.val + 8]

/-! ## Tree -/

/-- Folds the blocks of one chunk into `chaining`, the last of them left pending. -/
def chunkFrom (counter : Nat) (chaining : Words 8) (flags : UInt32) (bytes : List UInt8) : Pending :=
  if _h : 64 < bytes.length then
    let first : Pending := ⟨chaining, blockWords (bytes.take 64), counter, 64, flags⟩
    chunkFrom counter (first.compress 0) 0 (bytes.drop 64)
  else
    ⟨chaining, blockWords bytes, counter, bytes.length, flags ||| chunkEnd⟩
termination_by bytes.length
decreasing_by simp; omega

/-- The leaf for chunk number `counter`. -/
def chunk (counter : Nat) (bytes : List UInt8) : Pending :=
  chunkFrom counter initial chunkStart bytes

/-- The inner node over two chaining values. -/
def parent (left right : Words 8) : Pending :=
  ⟨initial, left ++ right, 0, 64, parentFlag⟩

/-- The tree over a byte string whose first chunk has number `counter`. The left subtree holds the
largest power of two of whole chunks that leaves something for the right. -/
def subtree (counter : Nat) (bytes : List UInt8) : Pending :=
  if _h : 1024 < bytes.length then
    let chunks := Nat.pow 2 (Nat.log2 ((bytes.length - 1) / 1024))
    have _pos : 0 < chunks := Nat.two_pow_pos _
    have _fits : chunks ≤ (bytes.length - 1) / 1024 := Nat.log2_self_le (by omega)
    parent ((subtree counter (bytes.take (1024 * chunks))).compress 0)
      ((subtree (counter + chunks) (bytes.drop (1024 * chunks))).compress 0)
  else
    chunk counter bytes
termination_by bytes.length
decreasing_by
  all_goals simp only [List.length_take, List.length_drop]; omega

/-- The 32-byte digest of a byte string. -/
def digest (bytes : List UInt8) : List UInt8 :=
  ((subtree 0 bytes).compress rootFlag).toList.flatMap fun w => LittleEndian.encode 4 w.toNat

end SymbolIndex.Hash.Blake3
