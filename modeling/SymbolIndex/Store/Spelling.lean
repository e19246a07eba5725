import SymbolIndex.Double

/-!
# `SymbolIndex.Store.Spelling` — numbers that are spelled out

A text spells a number if it is a sign, digits with a point among them, and an exponent; all but one
digit can be left out, and there may be white space on either side. Without point and exponent the
number is exact. With one of them it is a number of double precision.

## Contents
- `Spelling`, `Spelling.ofText?`: the parts of the text.
- `Spelling.number`: what is spelled, a whole number or the next whole number below.
-/

namespace SymbolIndex.Store

open Text

structure Spelling where
  negative : Bool
  /-- The digits before the point. -/
  whole : List Char
  /-- The digits after the point. -/
  fraction : List Char
  /-- The power of ten by which the digits are shifted. -/
  exponent : Int
  /-- Whether there is neither a point nor an exponent. -/
  isPlain : Bool
  deriving DecidableEq, Repr

namespace Spelling

/-- White space around a number: the space and the controls from tab to carriage return. -/
def isSpace (c : Char) : Bool :=
  c = ' ' || decide (0x09 ≤ c.toNat ∧ c.toNat ≤ 0x0D)

/-- A text without the white space on either side. -/
def strip (cs : List Char) : List Char :=
  ((cs.dropWhile isSpace).reverse.dropWhile isSpace).reverse

/-- Whether a text starts with a minus, and the rest after its sign. -/
def sign : List Char → Bool × List Char
  | '-' :: rest => (true, rest)
  | '+' :: rest => (false, rest)
  | text => (false, text)

/-- The digits after a point, if there is a point. -/
def pointed? : List Char → Option (List Char × List Char)
  | '.' :: rest => some (rest.takeWhile Decimal.isDigit, rest.dropWhile Decimal.isDigit)
  | _ => none

/-- An exponent that takes up the whole text. -/
def exponent? : List Char → Option Int
  | [] => none
  | c :: rest =>
    let (negative, digits) := sign rest
    if (c = 'e' ∨ c = 'E') ∧ digits ≠ [] ∧ digits.all Decimal.isDigit then
      some (if negative then -(Decimal.value digits) else Decimal.value digits)
    else none

/-- The parts of a text that spells a number. -/
def ofText? (text : String) : Option Spelling :=
  let (negative, body) := sign (strip text.toList)
  let whole := body.takeWhile Decimal.isDigit
  let rest := body.dropWhile Decimal.isDigit
  let (fraction, tail) := (pointed? rest).getD ([], rest)
  if whole = [] ∧ fraction = [] then none
  else if tail = [] then some ⟨negative, whole, fraction, 0, rest = []⟩
  else (exponent? tail).map fun e => ⟨negative, whole, fraction, e, false⟩

/-- Whether a number has a place among the whole numbers of 64 bits with sign. -/
def fits (n : Int) : Bool :=
  decide (-0x8000000000000000 ≤ n ∧ n < 0x8000000000000000)

/-- Exponents beyond this one make a number zero or too large for any column. -/
def farExponent : Nat := 10000

/-- The number that a spelling stands for, cut to a 64-bit significand, as a ratio. -/
def ratio (p : Spelling) : Nat × Nat :=
  let (high, left) := Double.absorb 0 p.whole
  let (significand, dropped) := Double.absorb high p.fraction
  let scale : Int := p.exponent + left - ((p.fraction.length - dropped : Nat) : Int)
  (significand * Nat.pow 10 (min scale.toNat farExponent), Nat.pow 10 (min (-scale).toNat farExponent))

def signed (p : Spelling) (n : Nat) : Int :=
  if p.negative then -n else n

/-- The whole number of 64 bits that is spelled, or else the greatest whole number that is not above
what is spelled. Written with a point or an exponent, the two outermost numbers are not among the
whole numbers of 64 bits. -/
def number (p : Spelling) : Except Int Int :=
  if p.isPlain then
    let n := p.signed (Decimal.value p.whole)
    if fits n then .ok n else .error n
  else
    let (above, below) := p.ratio
    let floor : Int := (p.signed above).fdiv below
    match Double.wholeOfRatio? above below with
    | some n =>
      let n := p.signed n
      if fits (n - 1) && fits (n + 1) then .ok n else .error floor
    | none => .error floor

end Spelling

end SymbolIndex.Store
