import SymbolIndex.Proofs.Ledger
import SymbolIndex.SymbolTable

/-!
# `Proofs.Sighting` — many usages for one ledger

A sighting is a usage that can be recorded: its owner is known and its place is complete. Offered one
after another, sightings open the entries of their owners, and each is kept unless its location is
there already. What the ledger says of an entity afterwards does not hang on the order of the offers.

## Contents
- `Sighting`, `Ledger.offer`.
- `contains_offer`, `mem_usages_offer`, `locations_offer`, `Distinct.offer`.
- `usages_offer_comm`: usages of different entities can be offered in either order.
-/

namespace SymbolIndex

/-- A usage of an entity at a complete place, under the name by which it was reported. -/
structure Sighting where
  owner : Handle
  name : String
  path : String
  location : Location

/-- The node that a sighting is recorded as. -/
def Sighting.node (x : Sighting) : Node :=
  Node.usage x.name x.owner.kind.symbolType x.location

namespace Ledger

variable {l : Ledger} {xs : List Sighting} {id : EntityId} {n : Node} {location : Location}

/-- Offers usages to the ledger, one after another. -/
def offer (l : Ledger) (xs : List Sighting) : Ledger :=
  xs.foldl (fun l x => (l.insert x.owner.id x.node).1) l

theorem offer_append (l : Ledger) (xs ys : List Sighting) :
    l.offer (xs ++ ys) = (l.offer xs).offer ys :=
  List.foldl_append

theorem contains_offer :
    (l.offer xs).contains id = true ↔ l.contains id = true ∨ ∃ x ∈ xs, x.owner.id = id := by
  induction xs generalizing l with
  | nil => simp [offer]
  | cons x xs ih =>
    show (Ledger.offer (l.insert x.owner.id x.node).1 xs).contains id = true ↔ _
    rw [ih, contains_insert]
    simp only [List.mem_cons, exists_eq_or_imp, or_assoc, eq_comm (a := id), or_left_comm]

/-- Whatever is recorded of an entity was there or has been offered. -/
theorem mem_usages_offer (h : n ∈ (l.offer xs).usages id) :
    n ∈ l.usages id ∨ ∃ x ∈ xs, x.owner.id = id ∧ x.node = n := by
  induction xs generalizing l with
  | nil => exact Or.inl h
  | cons x xs ih =>
    rcases ih (l := (l.insert x.owner.id x.node).1) h with old | ⟨y, hy, owned, rfl⟩
    · rw [usages_insert] at old
      split at old
      · rename_i added
        rcases List.mem_append.mp old with old | new
        · exact Or.inl old
        · exact Or.inr ⟨x, List.mem_cons_self, added.1.symm, (List.mem_singleton.mp new).symm⟩
      · exact Or.inl old
    · exact Or.inr ⟨y, List.mem_cons_of_mem x hy, owned, rfl⟩

/-- **No location is lost**: those of an entity are the ones it had and the ones offered. -/
theorem locations_offer : location ∈ ((l.offer xs).usages id).map Node.location ↔
    location ∈ (l.usages id).map Node.location ∨
      ∃ x ∈ xs, x.owner.id = id ∧ x.location = location := by
  induction xs generalizing l with
  | nil => simp [offer]
  | cons x xs ih =>
    show location ∈ ((Ledger.offer (l.insert x.owner.id x.node).1 xs).usages id).map _ ↔ _
    rw [ih, locations_insert, or_assoc]
    simp only [List.mem_cons, exists_eq_or_imp]
    rfl

theorem Distinct.offer (h : l.Distinct) (xs : List Sighting) : (l.offer xs).Distinct := by
  induction xs generalizing l with
  | nil => exact h
  | cons x xs ih => exact ih (h.insert x.owner.id x.node)

theorem mem_nodes_offer (h : n ∈ (l.offer xs).nodes) : n ∈ l.nodes ∨ ∃ x ∈ xs, x.node = n := by
  obtain ⟨id, recorded⟩ := mem_nodes_iff.mp h
  rcases mem_usages_offer recorded with old | ⟨x, hx, _, rfl⟩
  · exact Or.inl (mem_nodes_iff.mpr ⟨id, old⟩)
  · exact Or.inr ⟨x, hx, rfl⟩

/-! ## Usages of different entities -/

/-- Offers to others leave the usages of an entity alone. -/
theorem usages_offer_of_others (others : ∀ x ∈ xs, x.owner.id ≠ id) :
    (l.offer xs).usages id = l.usages id := by
  induction xs generalizing l with
  | nil => rfl
  | cons x xs ih =>
    show (Ledger.offer (l.insert x.owner.id x.node).1 xs).usages id = _
    rw [ih fun y hy => others y (List.mem_cons_of_mem x hy), usages_insert, if_neg]
    exact fun added => others x List.mem_cons_self added.1.symm

/-- What is kept of an offer for an entity depends on its own usages alone. -/
theorem usages_offer_congr {l' : Ledger} (same : l.usages id = l'.usages id) (xs : List Sighting) :
    (l.offer xs).usages id = (l'.offer xs).usages id := by
  induction xs generalizing l l' with
  | nil => exact same
  | cons x xs ih =>
    show (Ledger.offer (l.insert x.owner.id x.node).1 xs).usages id =
      (Ledger.offer (l'.insert x.owner.id x.node).1 xs).usages id
    refine ih ?_
    rw [usages_insert, usages_insert]
    by_cases owned : id = x.owner.id
    · rw [same]
      unfold records
      rw [← owned, same]
    · rw [if_neg fun added => owned added.1, if_neg fun added => owned added.1, same]

/-- **Usages of different entities can be offered in either order.** -/
theorem usages_offer_comm {ys : List Sighting} (apart : ∀ x ∈ xs, ∀ y ∈ ys, x.owner.id ≠ y.owner.id)
    (l : Ledger) (id : EntityId) :
    ((l.offer xs).offer ys).usages id = ((l.offer ys).offer xs).usages id := by
  by_cases owned : ∃ y ∈ ys, y.owner.id = id
  · obtain ⟨y, hy, rfl⟩ := owned
    have others : ∀ x ∈ xs, x.owner.id ≠ y.owner.id := fun x hx => apart x hx y hy
    rw [usages_offer_of_others others]
    exact usages_offer_congr (usages_offer_of_others others) ys
  · have others : ∀ y ∈ ys, y.owner.id ≠ id := fun y hy same => owned ⟨y, hy, same⟩
    rw [usages_offer_of_others others]
    exact usages_offer_congr (usages_offer_of_others others).symm xs

/-- Opens entries for several entities. -/
def openAll (l : Ledger) (owners : List EntityId) : Ledger :=
  owners.foldl register l

@[simp] theorem usages_openAll (l : Ledger) (owners : List EntityId) (id : EntityId) :
    (l.openAll owners).usages id = l.usages id := by
  induction owners generalizing l with
  | nil => rfl
  | cons owner owners ih => exact (ih (l.register owner)).trans (usages_register l owner id)

theorem contains_openAll {owners : List EntityId} :
    (l.openAll owners).contains id = true ↔ l.contains id = true ∨ id ∈ owners := by
  induction owners generalizing l with
  | nil => simp [openAll]
  | cons owner owners ih =>
    show ((l.register owner).openAll owners).contains id = true ↔ _
    rw [ih, contains_register, List.mem_cons, or_assoc, or_left_comm]

end Ledger

end SymbolIndex
