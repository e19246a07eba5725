import SymbolIndex.Proofs.Keys
import SymbolIndex.Store.Table

/-!
# `Proofs.Store.Merge` — what a table takes of an offer

A table that is offered rows keeps the ones it has and takes what does not clash. So nothing is lost
that matters to a reference: each offered row is there afterwards, or a row that it clashes with is. If
nothing clashes the whole offer is taken.

## Contents
- `mem_merge`, `mem_merge_of_mem`, `covered_merge` and their forms for tables with a key.
- `fresh_merge`: an offer that is made again adds nothing.
- `fresh_eq_self`: an offer without clashes is taken whole.
- `fresh_nil_eq_eraseDupsBy`: what an empty table takes of an offer.
-/

namespace SymbolIndex.Store

variable {ρ κ : Type} {clash : ρ → ρ → Bool} {rows offer : List ρ} {row : ρ}

theorem mem_merge_of_mem (h : row ∈ rows) : row ∈ merge clash rows offer :=
  List.mem_append_left _ h

theorem mem_merge (h : row ∈ merge clash rows offer) : row ∈ rows ∨ row ∈ offer :=
  (List.mem_append.mp h).imp_right fun taken => (fresh_sublist clash rows offer).subset taken

/-- Every offered row is there after the offer, or one that it clashes with. -/
theorem covered_merge (clash : ρ → ρ → Bool) (rows : List ρ) (h : row ∈ offer) :
    ∃ r ∈ merge clash rows offer, r = row ∨ clash row r = true := by
  induction offer generalizing rows with
  | nil => cases h
  | cons first offer ih =>
    rw [merge_cons]
    rcases List.mem_cons.mp h with rfl | later
    · cases there : taken clash rows row with
      | true =>
        obtain ⟨r, hr, clashes⟩ := List.any_eq_true.mp there
        exact ⟨r, mem_merge_of_mem hr, Or.inr clashes⟩
      | false => exact ⟨row, mem_merge_of_mem (by simp), Or.inl rfl⟩
    · exact ih _ later

/-- A table takes nothing of an offer whose every row clashes with one of its own. -/
theorem fresh_eq_nil (covered : ∀ row ∈ offer, taken clash rows row = true) :
    fresh clash rows offer = [] := by
  induction offer with
  | nil => rfl
  | cons first offer ih =>
    unfold fresh
    rw [if_pos (covered first List.mem_cons_self)]
    exact ih fun row hrow => covered row (List.mem_cons_of_mem first hrow)

/-- An offered row clashes with the table afterwards, where every row clashes with itself. -/
theorem taken_merge (self : ∀ row, clash row row = true) (rows : List ρ) (h : row ∈ offer) :
    taken clash (merge clash rows offer) row = true := by
  obtain ⟨r, hr, rfl | clashes⟩ := covered_merge clash rows h
  · exact List.any_eq_true.mpr ⟨r, hr, self r⟩
  · exact List.any_eq_true.mpr ⟨r, hr, clashes⟩

/-- **A table takes an offer once**: made again, it adds nothing. -/
theorem fresh_merge (self : ∀ row, clash row row = true) (rows offer : List ρ) :
    fresh clash (merge clash rows offer) offer = [] :=
  fresh_eq_nil fun _ hrow => taken_merge self rows hrow

theorem sameKey_self {κ : Type} [DecidableEq κ] (key : ρ → κ) (row : ρ) : sameKey key row row = true :=
  decide_eq_true rfl

section Keys

variable [DecidableEq κ] {key : ρ → κ} {k : κ}

/-- In a table with a key, the keys of an offer are there afterwards. -/
theorem mem_keys_merge (rows : List ρ) (h : k ∈ offer.map key) :
    k ∈ (merge (sameKey key) rows offer).map key := by
  obtain ⟨row, hrow, rfl⟩ := List.mem_map.mp h
  obtain ⟨r, hr, same⟩ := covered_merge (sameKey key) rows hrow
  refine List.mem_map.mpr ⟨r, hr, ?_⟩
  rcases same with rfl | same
  · rfl
  · exact (of_decide_eq_true same).symm

theorem taken_sameKey : taken (sameKey key) rows row = true ↔ key row ∈ rows.map key := by
  unfold taken sameKey
  simp only [List.any_eq_true, decide_eq_true_eq, List.mem_map]
  exact exists_congr fun r => and_congr_right fun _ => eq_comm

end Keys

/-! ## Offers without clashes -/

/-- An offer of which no row clashes with the table or with an earlier row is taken whole. -/
theorem fresh_eq_self (free : ∀ row ∈ offer, taken clash rows row = false)
    (apart : offer.Pairwise fun a b => clash b a = false) : fresh clash rows offer = offer := by
  induction offer generalizing rows with
  | nil => rfl
  | cons first offer ih =>
    rw [List.pairwise_cons] at apart
    unfold fresh
    rw [if_neg (by rw [free first List.mem_cons_self]; decide)]
    refine congrArg (first :: ·) (ih ?_ apart.2)
    intro row hrow
    have old := free row (List.mem_cons_of_mem _ hrow)
    unfold taken at old ⊢
    rw [List.any_append, old, List.any_cons, apart.1 row hrow]
    rfl

theorem fresh_sameKey_eq_self [DecidableEq κ] (key : ρ → κ)
    (new : ∀ row ∈ offer, key row ∉ rows.map key) (distinct : (offer.map key).Nodup) :
    fresh (sameKey key) rows offer = offer := by
  refine fresh_eq_self ?_ ?_
  · intro row hrow
    exact Bool.eq_false_iff.mpr fun there => new row hrow (taken_sameKey.mp there)
  · refine (List.pairwise_map.mp distinct).imp ?_
    intro a b differ
    exact decide_eq_false fun same => differ same.symm

/-- A table without a key takes every offer. -/
theorem fresh_never (rows offer : List ρ) : fresh never rows offer = offer := by
  refine fresh_eq_self (fun row _ => ?_) ?_
  · simp [taken, never]
  · exact List.pairwise_of_forall fun _ _ => rfl

/-- An empty table takes the first row of each clash. -/
theorem fresh_nil_eq_eraseDupsBy (clash : ρ → ρ → Bool) (offer : List ρ) :
    fresh clash [] offer = offer.eraseDupsBy clash := by
  -- the loop of the library carries the rows taken so far in reverse
  have loop : ∀ (offer acc : List ρ),
      List.eraseDupsBy.loop clash offer acc = acc.reverse ++ fresh clash acc.reverse offer := by
    intro offer
    induction offer with
    | nil =>
      intro acc
      simp [List.eraseDupsBy.loop, fresh]
    | cons row offer ih =>
      intro acc
      unfold List.eraseDupsBy.loop fresh taken
      rw [List.any_reverse]
      cases acc.any (clash row) with
      | true => exact ih acc
      | false =>
        rw [ih (row :: acc), List.reverse_cons]
        simp
  exact (loop offer []).symm

end SymbolIndex.Store
