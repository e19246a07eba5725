/-!
# `SymbolIndex.Dictionary` — finite maps in order of arrival

A dictionary is a list of keys with one value each, in the order in which the keys were first put.
Putting a known key replaces its value and keeps its place.

## Contents
- `find?`, `put`, `erase`, `keys`, `values`, `size`, `contains`.
- One equation per operation on the views `find?` and `keys`: `find?_put`, `keys_put`, `find?_erase`.
-/

namespace SymbolIndex

namespace Pairs

variable {κ α : Type} [DecidableEq κ]

/-- The value of a key in a list of pairs: the first one that is there. -/
def find? (key : κ) : List (κ × α) → Option α
  | [] => none
  | (k, a) :: rest => if k = key then some a else find? key rest

/-- Replaces the value of a key, or adds the key at the end. -/
def put (key : κ) (value : α) : List (κ × α) → List (κ × α)
  | [] => [(key, value)]
  | (k, a) :: rest => if k = key then (key, value) :: rest else (k, a) :: put key value rest

/-- What is put under a key is found there, and everything else where it was. -/
theorem find?_put (key other : κ) (value : α) (pairs : List (κ × α)) :
    find? other (put key value pairs) = if key = other then some value else find? other pairs := by
  induction pairs with
  | nil => simp [put, find?]
  | cons pair rest ih =>
    obtain ⟨k, a⟩ := pair
    by_cases same : k = key
    · subst same
      simp only [put, if_true, find?]
      split <;> rfl
    · simp only [put, if_neg same, find?, ih]
      by_cases here : k = other
      · subst here
        simp [Ne.symm same]
      · simp [here]

theorem find?_eq_none_iff {key : κ} {pairs : List (κ × α)} :
    find? key pairs = none ↔ key ∉ pairs.map Prod.fst := by
  induction pairs with
  | nil => simp [find?]
  | cons pair rest ih =>
    by_cases here : pair.1 = key
    · simp [find?, here]
    · simp [find?, here, ih, Ne.symm here]

/-- A new key goes to the end, a known one keeps its place. -/
theorem keys_put (key : κ) (value : α) (pairs : List (κ × α)) :
    (put key value pairs).map Prod.fst =
      if key ∈ pairs.map Prod.fst then pairs.map Prod.fst else pairs.map Prod.fst ++ [key] := by
  induction pairs with
  | nil => simp [put]
  | cons pair rest ih =>
    obtain ⟨k, a⟩ := pair
    by_cases same : k = key
    · simp [put, same]
    · simp only [put, if_neg same, List.map_cons, ih, List.mem_cons, Ne.symm same, false_or]
      split <;> rfl

theorem nodup_keys_put (key : κ) (value : α) {pairs : List (κ × α)}
    (h : (pairs.map Prod.fst).Nodup) : ((put key value pairs).map Prod.fst).Nodup := by
  rw [keys_put]
  split
  · exact h
  · rename_i absent
    rw [List.nodup_append]
    refine ⟨h, by simp, ?_⟩
    intro a ha b hb same
    simp only [List.mem_singleton] at hb
    exact absent (hb ▸ same ▸ ha)

/-- Takes a key out of a list of pairs. -/
def erase (key : κ) (pairs : List (κ × α)) : List (κ × α) :=
  pairs.filter fun pair => pair.1 ≠ key

/-- What is erased is not found, and everything else is. -/
theorem find?_erase (key other : κ) (pairs : List (κ × α)) :
    find? other (erase key pairs) = if key = other then none else find? other pairs := by
  induction pairs with
  | nil => simp [erase, find?]
  | cons pair rest ih =>
    obtain ⟨k, a⟩ := pair
    unfold erase at ih ⊢
    by_cases same : k = key
    · subst same
      rw [List.filter_cons_of_neg (by simp), ih]
      by_cases here : k = other <;> simp [find?, here]
    · rw [List.filter_cons_of_pos (by simpa using same)]
      simp only [find?, ih]
      by_cases here : k = other
      · have apart : key ≠ other := fun h => same (here.trans h.symm)
        simp [here, apart]
      · simp [here]

theorem nodup_keys_erase (key : κ) {pairs : List (κ × α)} (h : (pairs.map Prod.fst).Nodup) :
    ((erase key pairs).map Prod.fst).Nodup :=
  (List.filter_sublist.map Prod.fst).nodup h

end Pairs

/-- A finite map in order of arrival. -/
structure Dictionary (κ α : Type) where
  pairs : List (κ × α)
  nodup_keys : (pairs.map Prod.fst).Nodup
  deriving DecidableEq

namespace Dictionary

variable {κ α : Type}

def empty : Dictionary κ α :=
  ⟨[], by simp⟩

instance : EmptyCollection (Dictionary κ α) := ⟨empty⟩
instance : Inhabited (Dictionary κ α) := ⟨empty⟩

def keys (d : Dictionary κ α) : List κ :=
  d.pairs.map Prod.fst

def values (d : Dictionary κ α) : List α :=
  d.pairs.map Prod.snd

def size (d : Dictionary κ α) : Nat :=
  d.pairs.length

theorem size_eq_length_keys (d : Dictionary κ α) : d.size = d.keys.length := by
  simp [size, keys]

variable [DecidableEq κ]

def find? (d : Dictionary κ α) (key : κ) : Option α :=
  Pairs.find? key d.pairs

def contains (d : Dictionary κ α) (key : κ) : Bool :=
  (d.find? key).isSome

/-- Replaces the value of a key, or adds the key at the end. -/
def put (d : Dictionary κ α) (key : κ) (value : α) : Dictionary κ α :=
  ⟨Pairs.put key value d.pairs, Pairs.nodup_keys_put key value d.nodup_keys⟩

/-- Takes a key out. -/
def erase (d : Dictionary κ α) (key : κ) : Dictionary κ α :=
  ⟨Pairs.erase key d.pairs, Pairs.nodup_keys_erase key d.nodup_keys⟩

@[simp] theorem find?_empty (key : κ) : (empty : Dictionary κ α).find? key = none := rfl

theorem find?_put (d : Dictionary κ α) (key other : κ) (value : α) :
    (d.put key value).find? other = if key = other then some value else d.find? other :=
  Pairs.find?_put key other value d.pairs

theorem find?_erase (d : Dictionary κ α) (key other : κ) :
    (d.erase key).find? other = if key = other then none else d.find? other :=
  Pairs.find?_erase key other d.pairs

theorem contains_iff {d : Dictionary κ α} {key : κ} : d.contains key = true ↔ key ∈ d.keys := by
  unfold contains
  rw [← Decidable.not_iff_not, Bool.not_eq_true, Option.isSome_eq_false_iff, Option.isNone_iff_eq_none]
  exact Pairs.find?_eq_none_iff

theorem find?_eq_none_iff {d : Dictionary κ α} {key : κ} : d.find? key = none ↔ key ∉ d.keys :=
  Pairs.find?_eq_none_iff

theorem keys_put (d : Dictionary κ α) (key : κ) (value : α) :
    (d.put key value).keys = if key ∈ d.keys then d.keys else d.keys ++ [key] :=
  Pairs.keys_put key value d.pairs

end Dictionary

end SymbolIndex
