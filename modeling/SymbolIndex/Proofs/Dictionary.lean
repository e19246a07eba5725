import Mathlib.Data.List.Nodup
import SymbolIndex.Dictionary

/-!
# `Proofs.Dictionary` — a dictionary as the set of its entries

Each key of a dictionary has one value, so its pairs, its values and `find?` say the same thing. A new
key goes to the end, which is what keeps orders of arrival. Where that order does not matter, dictionaries
are compared by `find?`.

## Contents
- `mem_pairs_iff`, `mem_values_iff`, `pairs_put_of_new`, `put_of_find?_eq_some`.
- `putAll`; `find?_putAll_comm`: entries under different keys can be put in either order.
-/

namespace SymbolIndex

namespace Pairs

variable {κ α β : Type} [DecidableEq κ]

theorem mem_of_find? {key : κ} {a : α} {pairs : List (κ × α)} (h : find? key pairs = some a) :
    (key, a) ∈ pairs := by
  induction pairs with
  | nil => cases h
  | cons pair rest ih =>
    obtain ⟨k, b⟩ := pair
    by_cases here : k = key
    · simp only [find?, if_pos here, Option.some.injEq] at h
      rw [here, h]
      exact List.mem_cons_self
    · simp only [find?, if_neg here] at h
      exact List.mem_cons_of_mem _ (ih h)

theorem find?_of_mem {key : κ} {a : α} {pairs : List (κ × α)} (hk : (pairs.map Prod.fst).Nodup)
    (h : (key, a) ∈ pairs) : find? key pairs = some a := by
  induction pairs with
  | nil => cases h
  | cons pair rest ih =>
    obtain ⟨k, b⟩ := pair
    rw [List.map_cons, List.nodup_cons] at hk
    rcases List.mem_cons.mp h with same | later
    · cases same
      simp [find?]
    · have other : k ≠ key := by
        rintro rfl
        exact hk.1 (List.mem_map.mpr ⟨(k, a), later, rfl⟩)
      simp only [find?, if_neg other]
      exact ih hk.2 later

theorem put_of_find?_eq_none {key : κ} {a : α} {pairs : List (κ × α)}
    (h : find? key pairs = none) : put key a pairs = pairs ++ [(key, a)] := by
  induction pairs with
  | nil => rfl
  | cons pair rest ih =>
    obtain ⟨k, b⟩ := pair
    by_cases here : k = key
    · simp [find?, here] at h
    · simp only [find?, if_neg here] at h
      simp only [put, if_neg here, ih h, List.cons_append]

/-- A key that is put with the value that it has changes nothing. -/
theorem put_of_find?_eq_some {key : κ} {a : α} {pairs : List (κ × α)}
    (h : find? key pairs = some a) : put key a pairs = pairs := by
  induction pairs with
  | nil => cases h
  | cons pair rest ih =>
    obtain ⟨k, b⟩ := pair
    by_cases here : k = key
    · simp only [find?, if_pos here, Option.some.injEq] at h
      rw [put, if_pos here, ← here, h]
    · simp only [find?, if_neg here] at h
      rw [put, if_neg here, ih h]

/-- Of lists that values hold, a put changes the total length by what the key gains. -/
theorem length_flatMap_put (f : α → List β) (key : κ) (new : α) (pairs : List (κ × α)) :
    ((put key new pairs).flatMap (f ·.2)).length + (((find? key pairs).map f).getD []).length =
      (pairs.flatMap (f ·.2)).length + (f new).length := by
  induction pairs with
  | nil => simp [put, find?]
  | cons pair rest ih =>
    obtain ⟨k, old⟩ := pair
    by_cases here : k = key
    · simp only [put, find?, if_pos here, List.flatMap_cons, List.length_append, Option.map_some,
        Option.getD_some]
      omega
    · simp only [put, find?, if_neg here, List.flatMap_cons, List.length_append]
      omega

end Pairs

namespace Dictionary

variable {κ α : Type} [DecidableEq κ] {d : Dictionary κ α} {key : κ} {a : α}

theorem mem_pairs_iff : (key, a) ∈ d.pairs ↔ d.find? key = some a :=
  ⟨Pairs.find?_of_mem d.nodup_keys, Pairs.mem_of_find?⟩

theorem mem_values_iff : a ∈ d.values ↔ ∃ key, d.find? key = some a := by
  constructor
  · intro h
    obtain ⟨⟨key, b⟩, hp, rfl⟩ := List.mem_map.mp h
    exact ⟨key, mem_pairs_iff.mp hp⟩
  · rintro ⟨key, h⟩
    exact List.mem_map.mpr ⟨(key, a), mem_pairs_iff.mpr h, rfl⟩

theorem pairs_put_of_new (h : d.find? key = none) : (d.put key a).pairs = d.pairs ++ [(key, a)] :=
  Pairs.put_of_find?_eq_none h

theorem put_of_find?_eq_some (h : d.find? key = some a) : d.put key a = d := by
  obtain ⟨pairs, nodup⟩ := d
  exact (mk.injEq ..).mpr (Pairs.put_of_find?_eq_some h)

/-! ## Several entries -/

/-- Puts several entries, one after another. -/
def putAll (d : Dictionary κ α) (entries : List (κ × α)) : Dictionary κ α :=
  entries.foldl (fun d entry => d.put entry.1 entry.2) d

variable {d' : Dictionary κ α} {entries xs ys : List (κ × α)}

theorem find?_putAll_of_not_mem (h : key ∉ entries.map Prod.fst) :
    (d.putAll entries).find? key = d.find? key := by
  induction entries generalizing d with
  | nil => rfl
  | cons entry entries ih =>
    rw [List.map_cons, List.mem_cons, not_or] at h
    show ((d.put entry.1 entry.2).putAll entries).find? key = _
    rw [ih h.2, find?_put, if_neg (Ne.symm h.1)]

/-- What becomes of a key does not depend on its value before, if it is put. -/
theorem find?_putAll_congr (h : key ∈ entries.map Prod.fst ∨ d.find? key = d'.find? key) :
    (d.putAll entries).find? key = (d'.putAll entries).find? key := by
  induction entries generalizing d d' with
  | nil => exact h.elim (fun absurd => nomatch absurd) fun same => same
  | cons entry entries ih =>
    show ((d.put entry.1 entry.2).putAll entries).find? key =
      ((d'.put entry.1 entry.2).putAll entries).find? key
    refine ih ?_
    rw [find?_put, find?_put]
    rcases h with there | same
    · rcases List.mem_cons.mp there with first | later
      · exact Or.inr (by rw [if_pos first.symm, if_pos first.symm])
      · exact Or.inl later
    · exact Or.inr (by rw [same])

/-- **Entries under different keys can be put in either order.** -/
theorem find?_putAll_comm (apart : ∀ key ∈ xs.map Prod.fst, key ∉ ys.map Prod.fst) (key : κ) :
    ((d.putAll xs).putAll ys).find? key = ((d.putAll ys).putAll xs).find? key := by
  by_cases there : key ∈ ys.map Prod.fst
  · have others : key ∉ xs.map Prod.fst := fun also => apart key also there
    rw [find?_putAll_of_not_mem others]
    exact find?_putAll_congr (Or.inl there)
  · rw [find?_putAll_of_not_mem there]
    exact find?_putAll_congr (Or.inr (find?_putAll_of_not_mem there).symm)

end Dictionary

end SymbolIndex
