import SymbolIndex.Text.Decimal

/-!
# `SymbolIndex.Double` — rounding to 53 significant bits

A number of double precision is a whole number of at most 53 bits times a power of two. Here are the
rounding of natural numbers and of ratios, ties to the even neighbour, and the significand that a
long row of digits is cut to.

## Contents
- `round`: a natural number rounded.
- `wholeOfRatio?`: a ratio rounded, if that makes it whole.
- `absorb`: digits taken into a 64-bit significand.
-/

namespace SymbolIndex.Double

open Text

/-- The nearest number with at most 53 significant bits; a tie goes to the even one. -/
def round (n : Nat) : Nat :=
  let shift := Nat.log2 n - 52
  let unit := Nat.pow 2 shift
  let down := n / unit
  let left := n % unit
  if unit < 2 * left ∨ (unit = 2 * left ∧ down % 2 = 1) then (down + 1) * unit else down * unit

/-- How many bits after the point are kept before a ratio is rounded. -/
def guardBits : Nat := 200

/-- The number of double precision that is nearest to a ratio, if it is whole. Below half of the
smallest such number a ratio is taken for zero. -/
def wholeOfRatio? (above below : Nat) : Option Nat :=
  if above * Nat.pow 2 1075 ≤ below then some 0
  else
    let scaled := above * Nat.pow 2 guardBits
    let kept := 2 * (scaled / below) + (if scaled % below = 0 then 0 else 1)
    let unit := Nat.pow 2 (guardBits + 1)
    let rounded := round kept
    if rounded % unit = 0 then some (rounded / unit) else none

/-- Takes digits into a 64-bit significand for as long as they fit. The result is the significand
and the number of digits left over. -/
def absorb (significand : Nat) : List Char → Nat × Nat
  | [] => (significand, 0)
  | c :: cs =>
    let next := 10 * significand + Decimal.digitValue c
    if next < 0x10000000000000000 then absorb next cs else (significand, (c :: cs).length)

end SymbolIndex.Double
