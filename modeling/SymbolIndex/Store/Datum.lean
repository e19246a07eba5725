import SymbolIndex.Id
import SymbolIndex.Store.Spelling

/-!
# `SymbolIndex.Store.Datum` — what a column of integers holds

A column of integers is written with integers of 64 bits, but it can be overwritten with anything. It
takes an integer from whatever spells one and keeps every other value as it is.

## Contents
- `Datum`, `Datum.ofNumber`, `Datum.ofText`: what a column makes of a number and of a text.
- `Datum.ofId`, `Datum.ofWord32`, `Datum.ofFlag` and the readings `id?`, `word32?`, `flag?`, each of
  which gives back what was written.
- `Datum.compare`: numbers in their order, then texts in theirs.
-/

namespace SymbolIndex.Store

inductive Datum where
  | integer (n : Int)
  /-- A number that is no integer of 64 bits, known by the greatest integer that is not above it. -/
  | real (floor : Int)
  | text (s : String)
  deriving DecidableEq, Repr, Inhabited

namespace Datum

def ofNumber (n : Int) : Datum :=
  if Spelling.fits n then .integer n else .real n

def ofText (s : String) : Datum :=
  match Spelling.ofText? s with
  | none => .text s
  | some p =>
    match p.number with
    | .ok n => .integer n
    | .error floor => .real floor

/-! ## What is written and how it is read -/

variable {subject : Subject}

/-- An identifier is stored as the signed number with the same bits. -/
def ofId (id : Id subject) : Datum :=
  .integer id.signed

def ofWord32 (w : UInt32) : Datum :=
  .integer w.toNat

/-- A flag is stored as zero or one. -/
def ofFlag (b : Bool) : Datum :=
  .integer (if b then 1 else 0)

def integer? : Datum → Option Int
  | integer n => some n
  | _ => none

def id? (d : Datum) : Option (Id subject) :=
  d.integer?.map Id.ofSigned

/-- An integer that fits into 32 bits without sign. -/
def wordOfInteger? (n : Int) : Option UInt32 :=
  if 0 ≤ n ∧ n < 0x100000000 then some (UInt32.ofNat n.toNat) else none

def word32? (d : Datum) : Option UInt32 :=
  d.integer?.bind wordOfInteger?

/-- Every integer but zero is a set flag. -/
def flag? (d : Datum) : Option Bool :=
  d.integer?.map fun n => n != 0

@[simp] theorem id?_ofId (id : Id subject) : (ofId id).id? = some id := by
  simp [ofId, id?, integer?, Id.ofSigned_signed]

theorem wordOfInteger?_toNat (w : UInt32) : wordOfInteger? (w.toNat : Int) = some w := by
  have bound : w.toNat < 0x100000000 := w.toNat_lt
  unfold wordOfInteger?
  rw [if_pos (by omega), Int.toNat_natCast, UInt32.ofNat_toNat]

@[simp] theorem word32?_ofWord32 (w : UInt32) : (ofWord32 w).word32? = some w := by
  rw [word32?, ofWord32, integer?, Option.bind_some, wordOfInteger?_toNat]

@[simp] theorem flag?_ofFlag (b : Bool) : (ofFlag b).flag? = some b := by
  cases b <;> rfl

theorem ofId_injective {a b : Id subject} (h : ofId a = ofId b) : a = b := by
  have same : some a = some b := by rw [← id?_ofId a, ← id?_ofId b, h]
  exact Option.some.inj same

/-! ## Order -/

/-- Numbers in their order, then texts in theirs. -/
def compare : Datum → Datum → Ordering
  | integer a, integer b => Ord.compare a b
  | integer a, real b => if a ≤ b then .lt else .gt
  | real a, integer b => if b ≤ a then .gt else .lt
  | real a, real b => Ord.compare a b
  | text a, text b => Ord.compare a b
  | text _, _ => .gt
  | _, text _ => .lt

end Datum

end SymbolIndex.Store
