import SymbolIndex.Text.Hex

/-!
# `SymbolIndex.Id` — 64-bit identifiers

An identifier names one file, entity or syntax node. The three kinds share one definition and
differ in a type index, so that an identifier of one kind cannot stand for another.

## Contents
- `Id`, and its abbreviations `FileId`, `EntityId`, `NodeId`.
- `Id.toText`: sixteen hexadecimal digits.
- `Id.signed`, `Id.ofSigned`: the number as a signed 64-bit column stores it; each undoes the other.
-/

namespace SymbolIndex

/-- What an identifier names. -/
inductive Subject where
  | file
  | entity
  | node
  deriving DecidableEq, Repr

structure Id (subject : Subject) where
  val : UInt64
  deriving DecidableEq, Repr, Inhabited

abbrev FileId := Id .file
abbrev EntityId := Id .entity
abbrev NodeId := Id .node

namespace Id

variable {subject : Subject}

/-- Sixteen lower-case hexadecimal digits. -/
def toText (id : Id subject) : String :=
  String.ofList (Text.Hex.digits 16 id.val.toNat)

/-- The same 64 bits read as a signed number. -/
def signed (id : Id subject) : Int :=
  if id.val.toNat < 0x8000000000000000 then id.val.toNat else (id.val.toNat : Int) - 0x10000000000000000

/-- The identifier whose bits are those of a signed number. -/
def ofSigned (n : Int) : Id subject :=
  ⟨UInt64.ofNat (n % 0x10000000000000000).toNat⟩

theorem ofSigned_signed (id : Id subject) : ofSigned id.signed = id := by
  have bound : id.val.toNat < 0x10000000000000000 := id.val.toNat_lt
  have wrapped : (id.signed % 0x10000000000000000).toNat = id.val.toNat := by
    unfold signed
    split <;> omega
  unfold ofSigned
  rw [wrapped, UInt64.ofNat_toNat]

end Id

end SymbolIndex
