/-!
# `SymbolIndex.Hash.LittleEndian` — numbers as bytes, least significant byte first

`encode count n` writes the lowest `count` bytes of `n`; `decode` reads any byte list. Main
statements: the written form has `count` bytes, and reading it back gives `n` when `n` fits.
-/

namespace SymbolIndex.Hash.LittleEndian

/-- The number that a byte list spells. -/
def decode (bytes : List UInt8) : Nat :=
  bytes.foldr (fun b n => b.toNat + 256 * n) 0

/-- The lowest `count` bytes of `n`. -/
def encode : (count : Nat) → (n : Nat) → List UInt8
  | 0, _ => []
  | count + 1, n => n.toUInt8 :: encode count (n / 256)

@[simp] theorem length_encode (count n : Nat) : (encode count n).length = count := by
  induction count generalizing n with
  | zero => rfl
  | succ count ih => simp [encode, ih]

theorem decode_encode (count n : Nat) (h : n < Nat.pow 256 count) : decode (encode count n) = n := by
  induction count generalizing n with
  | zero =>
    have : n = 0 := by simpa using h
    simp [encode, decode, this]
  | succ count ih =>
    have small : n / 256 < Nat.pow 256 count := by
      rw [Nat.div_lt_iff_lt_mul (by decide)]
      simpa [Nat.pow_succ] using h
    have rest := ih (n / 256) small
    have low : n.toUInt8.toNat = n % 256 := by simp [Nat.toUInt8]
    simp only [decode] at rest
    simp only [encode, decode, List.foldr_cons, rest]
    omega

end SymbolIndex.Hash.LittleEndian
