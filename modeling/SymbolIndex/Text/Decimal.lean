/-!
# `SymbolIndex.Text.Decimal` — decimal digits

`digits` writes a number without leading zeros and `value` reads any list of digits. Main statement:
`value_digits`, reading back what was written.
-/

namespace SymbolIndex.Text.Decimal

/-- The digit for a number below ten. -/
def digit (n : Nat) : Char :=
  Char.ofNat ('0'.toNat + n)

/-- The digits of `n`, most significant first, without leading zeros. -/
def digits (n : Nat) : List Char :=
  if n < 10 then [digit n] else digits (n / 10) ++ [digit (n % 10)]
termination_by n
decreasing_by omega

def isDigit (c : Char) : Bool :=
  decide ('0' ≤ c ∧ c ≤ '9')

/-- The number that a digit stands for. -/
def digitValue (c : Char) : Nat :=
  c.toNat - '0'.toNat

/-- The number that a list of digits spells. -/
def value (cs : List Char) : Nat :=
  cs.foldl (fun n c => 10 * n + digitValue c) 0

/-- The digits of an integer, after a minus sign if it is negative. -/
def ofInt (n : Int) : List Char :=
  if n < 0 then '-' :: digits n.natAbs else digits n.natAbs

theorem digitValue_digit (n : Nat) (h : n < 10) : digitValue (digit n) = n := by
  have : ∀ k : Fin 10, digitValue (digit k.val) = k.val := by decide
  exact this ⟨n, h⟩

theorem isDigit_digit (n : Nat) (h : n < 10) : isDigit (digit n) = true := by
  have : ∀ k : Fin 10, isDigit (digit k.val) = true := by decide
  exact this ⟨n, h⟩

theorem value_digits (n : Nat) : value (digits n) = n := by
  induction n using digits.induct with
  | case1 n small =>
    rw [digits, if_pos small]
    simp [value, digitValue_digit n small]
  | case2 n large ih =>
    rw [digits, if_neg large]
    simp only [value] at ih
    simp only [value, List.foldl_append, ih, List.foldl_cons, List.foldl_nil,
      digitValue_digit (n % 10) (by omega)]
    omega

theorem isDigit_of_mem_digits (n : Nat) : ∀ c ∈ digits n, isDigit c = true := by
  induction n using digits.induct with
  | case1 n small =>
    rw [digits, if_pos small]
    simpa using isDigit_digit n small
  | case2 n large ih =>
    rw [digits, if_neg large]
    intro c mem
    rcases List.mem_append.1 mem with front | last
    · exact ih c front
    · rw [List.mem_singleton.1 last]
      exact isDigit_digit (n % 10) (by omega)

end SymbolIndex.Text.Decimal
