/-!
# `Proofs.Text.Bytes` — texts as bytes

The bytes of a text are those of its characters, one character after another. They say how long the text
is and which text it is, and a byte of ASCII among them is a character of its own.

## Contents
- `bytesOf`; `bytesOf_eq`, `bytesOf_append`, `bytesOf_eq_data`.
- `length_bytesOf`, `bytesOf_inj`.
- `mem_of_mem_bytesOf`: bytes of ASCII.
-/

namespace SymbolIndex

/-- The bytes of a text in UTF-8. -/
def bytesOf (s : String) : List UInt8 :=
  s.toUTF8.toList

theorem toList_loop (bs : ByteArray) (i : Nat) (done : List UInt8) :
    ByteArray.toList.loop bs i done = done.reverse ++ bs.data.toList.drop i := by
  induction i, done using ByteArray.toList.loop.induct bs with
  | case1 i done inside ih =>
    rw [ByteArray.toList.loop, if_pos inside, ih]
    have size : i < bs.data.toList.length := inside
    have front : bs.get! i = bs.data.toList[i] := by
      show bs.data[i]! = _
      rw [getElem!_pos bs.data i inside]
      rfl
    rw [List.reverse_cons, List.append_assoc, List.drop_eq_getElem_cons size, front]
    rfl
  | case2 i done outside =>
    rw [ByteArray.toList.loop, if_neg outside, List.drop_of_length_le (Nat.le_of_not_lt outside),
      List.append_nil]

theorem bytesOf_eq (s : String) : bytesOf s = s.toList.flatMap String.utf8EncodeChar := by
  unfold bytesOf ByteArray.toList
  rw [toList_loop, String.toUTF8_eq_toByteArray, ← String.utf8Encode_toList]
  exact List.toList_data_toByteArray

theorem bytesOf_empty : bytesOf "" = [] := by
  rw [bytesOf_eq]
  rfl

theorem bytesOf_append (s t : String) : bytesOf (s ++ t) = bytesOf s ++ bytesOf t := by
  simp only [bytesOf_eq, String.toList_append, List.flatMap_append]

theorem bytesOf_ne_nil {s : String} {c : Char} (hc : c ∈ s.toList) : bytesOf s ≠ [] := by
  rw [bytesOf_eq]
  exact fun none => String.utf8EncodeChar_ne_nil (List.flatMap_eq_nil_iff.mp none c hc)

/-- The bytes of a text are those that it is kept as. -/
theorem bytesOf_eq_data (s : String) : bytesOf s = s.toByteArray.data.toList := by
  rw [bytesOf_eq, ← String.utf8Encode_toList]
  exact List.toList_data_toByteArray.symm

theorem length_bytesOf (s : String) : (bytesOf s).length = s.utf8ByteSize := by
  rw [bytesOf_eq_data]
  exact String.size_toByteArray

/-- A text is known by its bytes. -/
theorem bytesOf_inj {s t : String} : bytesOf s = bytesOf t ↔ s = t := by
  refine ⟨fun same => ?_, congrArg bytesOf⟩
  rw [bytesOf_eq_data, bytesOf_eq_data] at same
  exact String.toByteArray_inj.mp (ByteArray.ext (Array.toList_inj.mp same))

/-- A byte of ASCII is a character of its own. -/
theorem encode_of_ascii {c : Char} {b : UInt8} (hb : b ∈ String.utf8EncodeChar c) (ascii : b.toNat < 0x80) :
    String.utf8EncodeChar c = [b] ∧ c.toNat = b.toNat := by
  have size : ∀ n, n < 0x100 → (UInt8.ofNat n).toNat = n := fun n hn => by
    rw [UInt8.toNat_ofNat', Nat.mod_eq_of_lt hn]
  unfold String.utf8EncodeChar at hb ⊢
  dsimp only at hb ⊢
  split at hb
  · rename_i small
    rw [if_pos small, List.mem_singleton.mp hb]
    exact ⟨rfl, (size _ (Nat.lt_of_le_of_lt small (by decide))).symm⟩
  · exfalso
    -- every byte of a longer character has its highest bit set
    have high : ∀ n, 0x80 ≤ n → n < 0x100 → b ≠ UInt8.ofNat n := by
      rintro n low bound rfl
      rw [size n bound] at ascii
      omega
    split at hb
    · simp only [List.mem_cons, List.not_mem_nil, or_false] at hb
      rcases hb with h | h <;> exact high _ (by omega) (by omega) h
    · split at hb <;> simp only [List.mem_cons, List.not_mem_nil, or_false] at hb
      · rcases hb with h | h | h <;> exact high _ (by omega) (by omega) h
      · rcases hb with h | h | h | h <;> exact high _ (by omega) (by omega) h

/-- A byte of ASCII in a text stands for a character in it. -/
theorem mem_of_mem_bytesOf {s : String} {b : UInt8} (hb : b ∈ bytesOf s) (ascii : b.toNat < 0x80) :
    ∃ c ∈ s.toList, c.toNat = b.toNat := by
  rw [bytesOf_eq, List.mem_flatMap] at hb
  obtain ⟨c, hc, hb⟩ := hb
  exact ⟨c, hc, (encode_of_ascii hb ascii).2⟩

end SymbolIndex
