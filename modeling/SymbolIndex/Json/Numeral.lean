import SymbolIndex.Double
import SymbolIndex.Json.Fault
import SymbolIndex.Text.Decimal

/-!
# `SymbolIndex.Json.Numeral` — numbers as they are written

A numeral is a sign, digits, and possibly a fraction and an exponent. Its value is exact only if it
is an integer of 64 bits; any other numeral has to be within the range of a double.

## Contents
- `Numeral` and `Numeral.read`, the grammar.
- `Numeral.integer?`, the 64-bit integers.
- `Numeral.overflows`: which numerals are beyond the largest double.
-/

namespace SymbolIndex.Json

open Text

/-- The exponent of a numeral: its direction and its digits. -/
structure Exponent where
  negative : Bool
  digits : List Char
  deriving DecidableEq

structure Numeral where
  negative : Bool
  /-- The digits before the point. -/
  whole : List Char
  /-- The digits after the point; none if there is no point. -/
  fraction : List Char
  exponent : Option Exponent
  deriving DecidableEq

namespace Numeral

/-- The fault of a text that goes on with something other than a digit: the fault `atEnd` if it
ends. -/
def noDigit (atEnd : Fault) : List Char → Fault
  | [] => atEnd
  | _ :: _ => .malformed

/-- One or more digits. -/
def readDigits (atEnd : Fault) (text : List Char) : Except Fault (List Char × List Char) :=
  match text.takeWhile Decimal.isDigit with
  | [] => .error (noDigit atEnd text)
  | digits => .ok (digits, text.dropWhile Decimal.isDigit)

/-- The digits before the point: a zero stands alone. -/
def readWhole (atEnd : Fault) (text : List Char) : Except Fault (List Char × List Char) := do
  let (digits, rest) ← readDigits atEnd text
  if digits.head? = some '0' ∧ digits.length ≠ 1 then .error .malformed else .ok (digits, rest)

/-- A point and the digits after it, if there is a point. -/
def readFraction (atEnd : Fault) : List Char → Except Fault (List Char × List Char)
  | '.' :: rest => readDigits atEnd rest
  | text => .ok ([], text)

/-- A sign that may be left out; the flag says whether it is a minus. -/
def readSign : List Char → Bool × List Char
  | '-' :: rest => (true, rest)
  | '+' :: rest => (false, rest)
  | text => (false, text)

def readExponent (atEnd : Fault) : List Char → Except Fault (Option Exponent × List Char)
  | [] => .ok (none, [])
  | c :: rest =>
    if c = 'e' ∨ c = 'E' then do
      let (negative, rest) := readSign rest
      let (digits, rest) ← readDigits atEnd rest
      .ok (some ⟨negative, digits⟩, rest)
    else .ok (none, c :: rest)

/-- A numeral at the start of a text. A text that ends inside the numeral has the fault `atEnd`. -/
def read (atEnd : Fault) (text : List Char) : Except Fault (Numeral × List Char) := do
  let (negative, text) := match text with
    | '-' :: rest => (true, rest)
    | _ => (false, text)
  let (whole, text) ← readWhole atEnd text
  let (fraction, text) ← readFraction atEnd text
  let (exponent, text) ← readExponent atEnd text
  .ok (⟨negative, whole, fraction, exponent⟩, text)

/-- The value of a numeral without fraction and exponent that fits into 64 bits, signed if it has
a minus and unsigned otherwise. Minus zero is no integer. -/
def integer? (n : Numeral) : Option Int :=
  if n.fraction = [] ∧ n.exponent = none then
    let size := Decimal.value n.whole
    if n.negative then
      if 0 < size ∧ size ≤ 0x8000000000000000 then some (-(size : Int)) else none
    else if size < 0x10000000000000000 then some size else none
  else none

/-! ## The range of a double -/

/-- Whether reading the numeral as a double overflows. The significand is cut to 64 bits; digits
left over before the point raise the exponent and those after the point are dropped. The
significand and the power of ten are doubles, and so is their product. -/
def overflows (n : Numeral) : Bool :=
  let (high, left) := Double.absorb 0 n.whole
  let (significand, dropped) := Double.absorb high n.fraction
  let scale : Int := (left : Int) - ((n.fraction.length - dropped : Nat) : Int)
  let exponent : Int := match n.exponent with
    | none => scale
    | some e => if e.negative then scale - Decimal.value e.digits else scale + Decimal.value e.digits
  let tooLong := match n.exponent with
    | some e => decide (0x80000000 ≤ Decimal.value e.digits)
    | none => false
  if tooLong then significand != 0 && !(n.exponent.any (·.negative))
  else if significand = 0 ∨ exponent < 0 then false
  else if 308 < exponent then true
  else decide (Nat.pow 2 1024 - Nat.pow 2 970 ≤
    Double.round significand * Double.round (Nat.pow 10 exponent.toNat))

end Numeral

end SymbolIndex.Json
