import Mathlib.Data.List.TakeWhile
import SymbolIndex.Json.Reader

/-!
# `Proofs.Json.Scalar` — where a number ends

A number has no closing character: it goes on for as long as what follows may be a part of it. In a text
that is a comma, a bracket or a brace, white space, or the end.

## Contents
- `EndsNumeral`; what the parts of a numeral make of a text that ends it.
- `Numeral.readAfterSign`: a numeral after its sign.
-/

namespace SymbolIndex.Json

variable {rest : List Char}

/-- What follows is no part of a numeral. -/
def EndsNumeral (rest : List Char) : Prop :=
  ∀ c ∈ rest.head?, Text.Decimal.isDigit c = false ∧ c ≠ '.' ∧ c ≠ 'e' ∧ c ≠ 'E'

namespace Numeral

theorem takeWhile_ended (h : EndsNumeral rest) : rest.takeWhile Text.Decimal.isDigit = [] := by
  cases rest with
  | nil => rfl
  | cons c cs => exact List.takeWhile_cons_of_neg (Bool.eq_false_iff.mp (h c rfl).1)

theorem dropWhile_ended (h : EndsNumeral rest) : rest.dropWhile Text.Decimal.isDigit = rest := by
  cases rest with
  | nil => rfl
  | cons c cs => exact List.dropWhile_cons_of_neg (Bool.eq_false_iff.mp (h c rfl).1)

theorem readFraction_of_ne {c : Char} (h : c ≠ '.') (atEnd : Fault) (text : List Char) :
    readFraction atEnd (c :: text) = .ok ([], c :: text) := by
  unfold readFraction
  split
  · rename_i point
    exact absurd (List.cons.inj point).1 h
  · rfl

theorem readFraction_ended (atEnd : Fault) (h : EndsNumeral rest) :
    readFraction atEnd rest = .ok ([], rest) := by
  cases rest with
  | nil => rfl
  | cons c cs => exact readFraction_of_ne (h c rfl).2.1 atEnd cs

theorem readExponent_ended (atEnd : Fault) (h : EndsNumeral rest) :
    readExponent atEnd rest = .ok (none, rest) := by
  cases rest with
  | nil => rfl
  | cons c cs =>
    obtain ⟨_, _, small, capital⟩ := h c rfl
    exact if_neg (not_or.mpr ⟨small, capital⟩)

/-- What follows the sign of a numeral. -/
def readAfterSign (atEnd : Fault) (negative : Bool) : Reader Numeral := fun text => do
  let (whole, text) ← readWhole atEnd text
  let (fraction, text) ← readFraction atEnd text
  let (exponent, text) ← readExponent atEnd text
  .ok (⟨negative, whole, fraction, exponent⟩, text)

theorem read_plain (atEnd : Fault) {text : List Char} (h : ∀ rest, text ≠ '-' :: rest) :
    read atEnd text = readAfterSign atEnd false text := by
  unfold read
  split
  rename_i sign
  split at sign
  · exact absurd rfl (h _)
  · cases sign
    rfl

end Numeral

end SymbolIndex.Json
