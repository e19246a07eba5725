import Mathlib.Data.List.Forall2
import SymbolIndex.Identity
import SymbolIndex.Proofs.Text.Bytes

/-!
# `Proofs.Identity` — different identities have different bytes

What is hashed for an identity can be read back from its front. The domain word has no zero byte in it, so
it ends at the first one, and it says which fields come after it. Each of those says where it ends: a text by
the length that is written in front of it, a number by its width. Two identities with the same bytes are
therefore one, whatever their texts hold, as long as the lengths fit into their eight bytes.

## Contents
- `Field.bytes_append_inj`, `fields_append_inj`: fields are read back from the front of any bytes.
- `domain_append_inj`: so is the domain.
- `Identity.Sized`, `Identity.Collision`.
- `bytes_tell_identities_apart`.
-/

namespace SymbolIndex

open Hash

namespace Identity

/-! ## Fields -/

/-- Fields that are written in the same way. -/
def Field.Alike : Field → Field → Prop
  | .text _, .text _ => True
  | .number _, .number _ => True
  | _, _ => False

/-- The length of a text fits into the eight bytes in front of it. -/
def Field.Fits : Field → Prop
  | .text s => s.utf8ByteSize < 0x10000000000000000
  | .number _ => True

theorem encode_inj {n m : Nat} (hn : n < 0x10000000000000000) (hm : m < 0x10000000000000000)
    (same : LittleEndian.encode 8 n = LittleEndian.encode 8 m) : n = m := by
  have read := congrArg LittleEndian.decode same
  rw [LittleEndian.decode_encode 8 n hn, LittleEndian.decode_encode 8 m hm] at read
  exact read

/-- **A field is read back from the front of any bytes**: it ends where its own bytes say. -/
theorem Field.bytes_append_inj {f g : Field} {xs ys : List UInt8} (alike : f.Alike g) (hf : f.Fits)
    (hg : g.Fits) (same : f.bytes ++ xs = g.bytes ++ ys) : f = g ∧ xs = ys := by
  cases f with
  | text s =>
    cases g with
    | number n => exact alike.elim
    | text t =>
      have parts : LittleEndian.encode 8 s.utf8ByteSize ++ (bytesOf s ++ xs) =
          LittleEndian.encode 8 t.utf8ByteSize ++ (bytesOf t ++ ys) := by
        simpa [Field.bytes, bytesOf] using same
      obtain ⟨front, rest⟩ := List.append_inj parts (by simp)
      -- the lengths are equal, so the texts end at the same byte
      have size : (bytesOf s).length = (bytesOf t).length := by
        rw [length_bytesOf, length_bytesOf]
        exact encode_inj hf hg front
      obtain ⟨text, after⟩ := List.append_inj rest size
      rw [bytesOf_inj.mp text]
      exact ⟨rfl, after⟩
  | number n =>
    cases g with
    | text t => exact alike.elim
    | number m =>
      obtain ⟨front, after⟩ := List.append_inj same (by simp [Field.bytes])
      have number : n = m := UInt64.toNat_inj.mp (encode_inj n.toNat_lt m.toNat_lt front)
      rw [number]
      exact ⟨rfl, after⟩

theorem fields_append_inj {fs gs : List Field} {xs ys : List UInt8} (alike : List.Forall₂ Field.Alike fs gs)
    (hf : ∀ f ∈ fs, f.Fits) (hg : ∀ g ∈ gs, g.Fits)
    (same : fs.flatMap Field.bytes ++ xs = gs.flatMap Field.bytes ++ ys) : fs = gs ∧ xs = ys := by
  induction alike with
  | nil => exact ⟨rfl, same⟩
  | cons first others ih =>
    rw [List.forall_mem_cons] at hf hg
    rw [List.flatMap_cons, List.flatMap_cons, List.append_assoc, List.append_assoc] at same
    obtain ⟨rfl, rest⟩ := Field.bytes_append_inj first hf.1 hg.1 same
    obtain ⟨rfl, after⟩ := ih hf.2 hg.2 rest
    exact ⟨rfl, after⟩

/-! ## Domains -/

/-- What comes before a mark is read back if the mark is not in it. -/
theorem ended_append_inj {α : Type} {mark : α} {us vs xs ys : List α} (hu : mark ∉ us) (hv : mark ∉ vs)
    (same : us ++ mark :: xs = vs ++ mark :: ys) : us = vs ∧ xs = ys := by
  induction us generalizing vs with
  | nil =>
    cases vs with
    | nil => simpa using same
    | cons v vs =>
      simp only [List.nil_append, List.cons_append, List.cons.injEq] at same
      exact absurd same.1 (fun h => hv (h ▸ List.mem_cons_self))
  | cons u us ih =>
    rw [List.mem_cons, not_or] at hu
    cases vs with
    | nil =>
      simp only [List.nil_append, List.cons_append, List.cons.injEq] at same
      exact absurd same.1.symm hu.1
    | cons v vs =>
      rw [List.mem_cons, not_or] at hv
      simp only [List.cons_append, List.cons.injEq] at same
      obtain ⟨rfl, rest⟩ := ih hu.2 hv.2 same.2
      exact ⟨by rw [same.1], rest⟩

variable {i j : Identity}

/-- No domain word has a zero byte in it, so none can be the front of another one that goes on. -/
theorem zero_notMem_domain (i : Identity) : (0 : UInt8) ∉ bytesOf i.domain := by
  rw [bytesOf_eq]
  cases i with
  | file path =>
    show 0 ∉ "file".toList.flatMap String.utf8EncodeChar
    decide
  | entity kind name =>
    show 0 ∉ "entity".toList.flatMap String.utf8EncodeChar
    decide
  | node name symbol type location =>
    show 0 ∉ "ast_node".toList.flatMap String.utf8EncodeChar
    decide

theorem domain_append_inj {xs ys : List UInt8}
    (same : bytesOf i.domain ++ 0 :: xs = bytesOf j.domain ++ 0 :: ys) : i.domain = j.domain ∧ xs = ys := by
  obtain ⟨word, rest⟩ := ended_append_inj i.zero_notMem_domain j.zero_notMem_domain same
  exact ⟨bytesOf_inj.mp word, rest⟩

/-- The domain says which fields there are. -/
theorem alike_fields (same : i.domain = j.domain) : List.Forall₂ Field.Alike i.fields j.fields := by
  cases i <;> cases j <;> simp [domain] at same <;> simp [fields, Field.Alike]

/-- A location is the five numbers that are written for it. -/
theorem location_eq {l k : Location} (file : l.file.val = k.file.val)
    (start : l.range.start.line = k.range.start.line ∧ l.range.start.column = k.range.start.column)
    (stop : l.range.stop.line = k.range.stop.line ∧ l.range.stop.column = k.range.stop.column) : l = k := by
  obtain ⟨⟨file⟩, ⟨⟨startLine, startColumn⟩, ⟨stopLine, stopColumn⟩⟩⟩ := l
  obtain ⟨⟨file'⟩, ⟨⟨startLine', startColumn'⟩, ⟨stopLine', stopColumn'⟩⟩⟩ := k
  simp_all

/-- An identity is its domain and its fields. -/
theorem eq_of_fields (domains : i.domain = j.domain) (same : i.fields = j.fields) : i = j := by
  cases i with
  | file path =>
    cases j <;> simp [domain] at domains
    simpa [fields] using same
  | entity kind name =>
    cases j <;> simp [domain] at domains
    simp only [fields, List.cons.injEq, Field.text.injEq] at same
    obtain ⟨word, text, _⟩ := same
    rw [Vocabulary.word_injective _ _ word, text]
  | node name symbol type location =>
    cases j <;> simp [domain] at domains
    simp only [fields, List.cons.injEq, Field.text.injEq, Field.number.injEq, UInt32.toUInt64_inj] at same
    obtain ⟨text, symbols, types, file, startLine, startColumn, stopLine, stopColumn, _⟩ := same
    rw [text, Vocabulary.word_injective _ _ symbols, Vocabulary.word_injective _ _ types,
      location_eq file ⟨startLine, startColumn⟩ ⟨stopLine, stopColumn⟩]

/-! ## Identities -/

/-- The texts of an identity that a record brings along. -/
def texts : Identity → List String
  | .file path => [path]
  | .entity _ name => [name]
  | .node name _ _ _ => [name]

/-- No text of the identity is longer than eight bytes can say. -/
def Sized (i : Identity) : Prop :=
  ∀ s ∈ i.texts, s.utf8ByteSize < 0x10000000000000000

instance (i : Identity) : Decidable i.Sized :=
  inferInstanceAs (Decidable (∀ s ∈ i.texts, s.utf8ByteSize < 0x10000000000000000))

/-- The words of kinds and types always fit; so do all fields if the texts of the record do. -/
theorem Sized.fits (h : i.Sized) : ∀ f ∈ i.fields, f.Fits := by
  cases i with
  | file path => simpa [Sized, texts, fields, Field.Fits] using h
  | entity kind name =>
    have word : (Vocabulary.word kind).utf8ByteSize < 0x10000000000000000 := by cases kind <;> decide
    simpa [Sized, texts, fields, Field.Fits, word] using h
  | node name symbol type location =>
    have symbolWord : (Vocabulary.word symbol).utf8ByteSize < 0x10000000000000000 := by cases symbol <;> decide
    have typeWord : (Vocabulary.word type).utf8ByteSize < 0x10000000000000000 := by cases type <;> decide
    simpa [Sized, texts, fields, Field.Fits, symbolWord, typeWord] using h

/-- **An identity is read back from its bytes.** -/
theorem bytes_inj (hi : i.Sized) (hj : j.Sized) (same : i.bytes = j.bytes) : i = j := by
  have parts : bytesOf i.domain ++ 0 :: (i.fields.flatMap Field.bytes ++ []) =
      bytesOf j.domain ++ 0 :: (j.fields.flatMap Field.bytes ++ []) := by
    simpa [bytes, bytesOf] using same
  obtain ⟨domains, rest⟩ := domain_append_inj parts
  obtain ⟨fields, _⟩ := fields_append_inj (alike_fields domains) hi.fits hj.fits rest
  exact eq_of_fields domains fields

/-- The number that is kept of the digest of a byte string. -/
def kept (bytes : List UInt8) : Nat :=
  LittleEndian.decode ((Blake3.digest bytes).take 8) % 0x8000000000000000

/-- Two byte strings of which the hash keeps the same number. -/
def Collision (a b : List UInt8) : Prop :=
  a ≠ b ∧ kept a = kept b

theorem kept_bytes_of_hash (same : i.hash = j.hash) : kept i.bytes = kept j.bytes := by
  have small (n : Nat) : n % 0x8000000000000000 < 0x10000000000000000 :=
    Nat.lt_trans (Nat.mod_lt n (by decide)) (by decide)
  have numbers := congrArg UInt64.toNat same
  unfold hash at numbers
  rw [UInt64.toNat_ofNat', UInt64.toNat_ofNat', Nat.mod_eq_of_lt (small _), Nat.mod_eq_of_lt (small _)] at numbers
  exact numbers

/-- **The bytes that are hashed tell identities apart**: they are those of one domain with one list of
fields. So different identities share an identifier only if the hash takes two byte strings together. -/
theorem bytes_tell_identities_apart (i j : Identity) (hi : i.Sized) (hj : j.Sized) :
    (i.bytes = j.bytes ↔ i = j) ∧ (i.hash = j.hash → i = j ∨ Collision i.bytes j.bytes) := by
  have apart : i.bytes = j.bytes ↔ i = j := ⟨bytes_inj hi hj, congrArg bytes⟩
  refine ⟨apart, ?_⟩
  intro shared
  by_cases same : i = j
  · exact Or.inl same
  · exact Or.inr ⟨fun bytes => same (apart.mp bytes), kept_bytes_of_hash shared⟩

/-- A name that goes on with a zero byte and the length of another text. -/
theorem zero_byte_in_name_is_told_apart :
    (Identity.entity .variable "a").Sized ∧ (Identity.entity .variable "a\x00\x01b").Sized ∧
      (Identity.entity .variable "a").bytes ≠ (Identity.entity .variable "a\x00\x01b").bytes := by
  have short : (Identity.entity .variable "a").Sized := by decide
  have long : (Identity.entity .variable "a\x00\x01b").Sized := by decide
  refine ⟨short, long, ?_⟩
  intro same
  exact absurd ((bytes_tell_identities_apart _ _ short long).1.mp same) (by decide)

end Identity

end SymbolIndex
