import Mathlib.Data.List.Nodup

/-!
# `Proofs.Keys` — records with distinct keys

What makes a list of records fit for a table is that a key of theirs does not repeat. Such lists grow at
their end, by records whose keys are new, and one key is often distinct because another one is. Where keys
do repeat, a list of records is as good as the lists of the records of each key.
-/

namespace SymbolIndex

variable {α κ μ : Type} {key : α → κ} {xs ys : List α}

/-- Lists with distinct keys make one if no key is in both. -/
theorem nodup_keys_append (hx : (xs.map key).Nodup) (hy : (ys.map key).Nodup)
    (new : ∀ y ∈ ys, ∀ x ∈ xs, key x ≠ key y) : ((xs ++ ys).map key).Nodup := by
  rw [List.map_append, List.nodup_append]
  refine ⟨hx, hy, ?_⟩
  intro a ha b hb
  obtain ⟨x, hx, rfl⟩ := List.mem_map.mp ha
  obtain ⟨y, hy, rfl⟩ := List.mem_map.mp hb
  exact new y hy x hx

/-- A key is distinct if it determines one that is. -/
theorem nodup_keys_of_determines {other : α → μ} (distinct : (xs.map key).Nodup)
    (determines : ∀ x ∈ xs, ∀ y ∈ xs, other x = other y → key x = key y) : (xs.map other).Nodup := by
  refine List.pairwise_map.mpr ((List.pairwise_map.mp distinct).imp_of_mem ?_)
  intro x y hx hy differ same
  exact differ (determines x hx y hy same)

/-- A key at the end of a list is its own first occurrence or a repetition. -/
theorem eraseDups_concat [DecidableEq κ] (keys : List κ) (k : κ) :
    (keys ++ [k]).eraseDups = if k ∈ keys then keys.eraseDups else keys.eraseDups ++ [k] := by
  rw [List.eraseDups_append]
  by_cases before : k ∈ keys
  · simp [List.removeAll, before]
  · simp [List.removeAll, before, List.eraseDups_cons]

/-- Records picked key by key are all of them, if each key is taken once. -/
theorem perm_flatMap_filter [DecidableEq κ] {keys : List κ} (distinct : keys.Nodup)
    (covered : ∀ x ∈ xs, key x ∈ keys) : (keys.flatMap fun k => xs.filter fun x => key x = k).Perm xs := by
  induction keys generalizing xs with
  | nil =>
    rw [List.eq_nil_iff_forall_not_mem.mpr fun x hx => absurd (covered x hx) List.not_mem_nil]
    exact List.Perm.nil
  | cons k keys ih =>
    rw [List.nodup_cons] at distinct
    -- the records with other keys are picked by the keys that follow
    have others : (keys.flatMap fun k' => xs.filter fun x => key x = k') =
        keys.flatMap fun k' => (xs.filter fun x => !decide (key x = k)).filter fun x => key x = k' := by
      refine List.flatMap_congr fun k' later => ?_
      rw [List.filter_filter]
      refine List.filter_congr fun x _ => ?_
      by_cases same : key x = k'
      · have apart : key x ≠ k := fun h => distinct.1 (h ▸ same ▸ later)
        simp [same, same ▸ apart]
      · simp [same]
    have rest : ∀ x ∈ xs.filter (fun x => !decide (key x = k)), key x ∈ keys := by
      intro x hx
      obtain ⟨there, apart⟩ := List.mem_filter.mp hx
      exact (List.mem_cons.mp (covered x there)).resolve_left (by simpa using apart)
    rw [List.flatMap_cons, others]
    exact ((ih distinct.2 rest).append_left _).trans (List.filter_append_perm _ xs)

/-- What comes to hold at one key comes to hold once. -/
theorem countP_add_one {k : κ} {p q : α → Bool} (distinct : (xs.map key).Nodup) (there : k ∈ xs.map key)
    (here : ∀ x ∈ xs, key x = k → p x = false ∧ q x = true)
    (elsewhere : ∀ x ∈ xs, key x ≠ k → q x = p x) : xs.countP q = xs.countP p + 1 := by
  induction xs with
  | nil => cases there
  | cons x xs ih =>
    rw [List.map_cons, List.nodup_cons] at distinct
    rw [List.countP_cons, List.countP_cons]
    by_cases same : key x = k
    · -- the key does not come again, so the rest counts as before
      have rest : xs.countP q = xs.countP p := by
        refine List.countP_congr fun y hy => ?_
        have other : key y ≠ k := fun again => distinct.1 (List.mem_map.mpr ⟨y, hy, again.trans same.symm⟩)
        rw [elsewhere y (List.mem_cons_of_mem x hy) other]
      obtain ⟨no, yes⟩ := here x List.mem_cons_self same
      rw [rest, no, yes]
      rfl
    · have later : k ∈ xs.map key := (List.mem_cons.mp there).resolve_left (Ne.symm same)
      rw [ih distinct.2 later (fun y hy => here y (List.mem_cons_of_mem x hy))
        (fun y hy => elsewhere y (List.mem_cons_of_mem x hy)), elsewhere x List.mem_cons_self same]
      omega

end SymbolIndex
