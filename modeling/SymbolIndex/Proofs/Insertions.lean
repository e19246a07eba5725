import Mathlib.Data.List.Induction
import SymbolIndex.Proofs.Ledger

/-!
# `Proofs.Insertions` — a ledger as the list of its insertions

Whatever is asked of a ledger, it says no more than the list of what was inserted, each insertion with its
answer. An insertion is answered by the locations that were inserted for the entity before, whether
they were added or not; the usages of an entity are its insertions that were added; and draining the
ledger takes the entities in the order in which they came up. The entries, the locations beside them and the
order beside both are never seen.

The order of the calls decides which node is kept of those at one location. It does not decide how
many are kept nor where they stand.

## Contents
- `Call`, `after`, `insertions`: runs and what they answer.
- `usages_after`, `total_after`, `locations_after`, `order_after`: the views of a ledger after a run.
- `total_eq_of_locations`: what the total depends on.
- `ledger_is_its_insertions`.
-/

namespace SymbolIndex.Ledger

/-! ## Runs -/

/-- What can be asked of a ledger that changes it. -/
inductive Call where
  | register (entity : EntityId)
  | insert (entity : EntityId) (node : Node)
  deriving DecidableEq

def Call.entity : Call → EntityId
  | .register entity => entity
  | .insert entity _ => entity

/-- The ledger after a call. -/
def call (l : Ledger) : Call → Ledger
  | .register entity => l.register entity
  | .insert entity node => (l.insert entity node).1

/-- The ledger after calls that are made one after another. -/
def after (l : Ledger) (calls : List Call) : Ledger :=
  calls.foldl call l

/-- An insertion with its answer. -/
structure Insertion where
  entity : EntityId
  node : Node
  added : Bool
  deriving DecidableEq

/-- The insertions among calls, in order, each with the answer that it got. -/
def insertions (l : Ledger) : List Call → List Insertion
  | [] => []
  | .register entity :: calls => (l.register entity).insertions calls
  | .insert entity node :: calls =>
    ⟨entity, node, (l.insert entity node).2⟩ :: (l.insert entity node).1.insertions calls

/-- The insertions that added a usage of an entity. -/
def Insertion.addedTo (entity : EntityId) (i : Insertion) : Bool :=
  i.added && decide (i.entity = entity)

variable {l : Ledger} {calls : List Call} {e x : EntityId} {n : Node} {location : Location}

theorem after_concat (l : Ledger) (calls : List Call) (c : Call) :
    l.after (calls ++ [c]) = (l.after calls).call c := by
  unfold after
  rw [List.foldl_append]
  rfl

/-! ## The views after a run -/

theorem contains_call (l : Ledger) (c : Call) : (l.call c).contains x = true ↔ x = c.entity ∨ l.contains x = true := by
  cases c with
  | register entity => exact contains_register l entity x
  | insert entity node => exact contains_insert l entity x node

theorem order_call (l : Ledger) (c : Call) :
    (l.call c).order = if l.contains c.entity then l.order else l.order ++ [c.entity] := by
  cases c with
  | register entity => exact order_register l entity
  | insert entity node => exact (order_insert l entity node).trans (order_register l entity)

theorem Distinct.call (h : l.Distinct) (c : Call) : (l.call c).Distinct := by
  cases c with
  | register entity => exact h.register entity
  | insert entity node => exact h.insert entity node

theorem locations_call (l : Ledger) (c : Call) : location ∈ ((l.call c).usages x).map Node.location ↔
    location ∈ (l.usages x).map Node.location ∨ ∃ node, c = .insert x node ∧ node.location = location := by
  cases c with
  | register entity =>
    show location ∈ ((l.register entity).usages x).map Node.location ↔ _
    simp
  | insert entity node =>
    refine (locations_insert l entity x node).trans (or_congr Iff.rfl ?_)
    simp

theorem contains_after (calls : List Call) :
    (empty.after calls).contains x = true ↔ ∃ c ∈ calls, c.entity = x := by
  induction calls using List.reverseRecOn with
  | nil => simp [after, empty, contains, Dictionary.contains]
  | append_singleton calls c ih =>
    rw [after_concat, contains_call, ih]
    simp only [List.mem_append, List.mem_singleton, or_and_right, exists_or, exists_eq_left]
    rw [or_comm, eq_comm (a := x)]

/-- **Entities are drained in the order in which they came up.** -/
theorem order_after (calls : List Call) : (empty.after calls).order = (calls.map Call.entity).eraseDups := by
  induction calls using List.reverseRecOn with
  | nil => rfl
  | append_singleton calls c ih =>
    have known : (empty.after calls).contains c.entity = true ↔ c.entity ∈ calls.map Call.entity := by
      rw [contains_after, List.mem_map]
    rw [after_concat, order_call, ih, List.map_append, List.map_singleton, eraseDups_concat]
    by_cases before : c.entity ∈ calls.map Call.entity
    · rw [if_pos (known.mpr before), if_pos before]
    · rw [if_neg (mt known.mp before), if_neg before]

theorem Distinct.after (h : l.Distinct) (calls : List Call) : (l.after calls).Distinct := by
  induction calls generalizing l with
  | nil => exact h
  | cons c calls ih => exact ih (h.call c)

/-- **The locations of an entity are those that were inserted for it**, whatever the answers were. -/
theorem locations_after (calls : List Call) : location ∈ ((l.after calls).usages x).map Node.location ↔
    location ∈ (l.usages x).map Node.location ∨ ∃ node, .insert x node ∈ calls ∧ node.location = location := by
  induction calls generalizing l with
  | nil => simp [after]
  | cons c calls ih =>
    show location ∈ (((l.call c).after calls).usages x).map Node.location ↔ _
    rw [ih, locations_call, or_assoc]
    simp only [List.mem_cons, or_and_right, exists_or, eq_comm (a := c)]

/-- **The usages of an entity are the insertions that added one**, in order. -/
theorem usages_after (l : Ledger) (calls : List Call) (x : EntityId) :
    (l.after calls).usages x =
      l.usages x ++ ((l.insertions calls).filter (Insertion.addedTo x)).map Insertion.node := by
  induction calls generalizing l with
  | nil => simp [after, insertions]
  | cons c calls ih =>
    show ((l.call c).after calls).usages x = _
    rw [ih]
    cases c with
    | register entity =>
      show (l.register entity).usages x ++ _ = _
      rw [usages_register]
      rfl
    | insert entity node =>
      show (l.insert entity node).1.usages x ++ _ = _
      rw [usages_insert, insertions]
      -- what is filtered out is an insertion for another entity or at a location that is recorded
      by_cases added : x = entity ∧ l.records entity node.location = false
      · obtain ⟨rfl, free⟩ := added
        simp [Insertion.addedTo, insert_snd, free, call]
      · rw [if_neg added, List.filter_cons_of_neg]
        · rfl
        · intro kept
          simp only [Insertion.addedTo, insert_snd, Bool.and_eq_true, Bool.not_eq_true', decide_eq_true_eq] at kept
          exact added ⟨kept.2.symm, kept.1⟩

/-- The usages that were added for an entity are picked from all that were added. -/
theorem filter_addedTo (i : List Insertion) (x : EntityId) :
    i.filter (Insertion.addedTo x) = (i.filter Insertion.added).filter fun j => j.entity = x := by
  rw [List.filter_filter]
  exact List.filter_congr fun j _ => Bool.and_comm ..

theorem entity_of_mem_insertions {i : Insertion} (h : i ∈ l.insertions calls) : i.entity ∈ calls.map Call.entity := by
  induction calls generalizing l with
  | nil => cases h
  | cons c calls ih =>
    cases c with
    | register entity => exact List.mem_cons_of_mem entity (ih h)
    | insert entity node =>
      rcases List.mem_cons.mp h with first | later
      · rw [first]
        exact List.mem_cons_self
      · exact List.mem_cons_of_mem entity (ih later)

/-- **The total counts the insertions that added a usage.** -/
theorem total_after (l : Ledger) (calls : List Call) :
    (l.after calls).total = l.total + (l.insertions calls).countP Insertion.added := by
  induction calls generalizing l with
  | nil => rfl
  | cons c calls ih =>
    show ((l.call c).after calls).total = _
    rw [ih]
    cases c with
    | register entity =>
      show (l.register entity).total + _ = _
      rw [total_register]
      rfl
    | insert entity node =>
      show (l.insert entity node).1.total + _ = _
      rw [total_insert, insertions, List.countP_cons, insert_snd]
      show _ + (insertions (l.insert entity node).1 calls).countP _ = _
      cases l.records entity node.location with
      | true => simp
      | false =>
        simp only [Bool.false_eq_true, if_false, Bool.not_false, if_true]
        omega

/-! ## The order of calls -/

/-- **What the total depends on**: which entities there are and where their usages stand. -/
theorem total_eq_of_locations {l' : Ledger} (hl : l.Distinct) (hl' : l'.Distinct)
    (contains : ∀ e, l.contains e = true ↔ l'.contains e = true)
    (locations : ∀ e location, location ∈ (l.usages e).map Node.location ↔
      location ∈ (l'.usages e).map Node.location) : l.total = l'.total := by
  have orders : l.order.Perm l'.order := by
    refine (List.perm_ext_iff_of_nodup l.nodup_order l'.nodup_order).mpr ?_
    intro e
    rw [mem_order_iff, mem_order_iff, contains]
  -- usages stand at different locations, so that as many locations are as many usages
  have lengths : ∀ e, (l.usages e).length = (l'.usages e).length := by
    intro e
    have same := (List.perm_ext_iff_of_nodup (hl e) (hl' e)).mpr (locations e)
    simpa using same.length_eq
  calc l.total = (l.order.flatMap l.usages).length := by rw [← length_nodes, nodes_eq]
    _ = (l.order.flatMap l'.usages).length := by simp only [List.length_flatMap, lengths]
    _ = (l'.order.flatMap l'.usages).length := (orders.flatMap_right l'.usages).length_eq
    _ = l'.total := by rw [← length_nodes, nodes_eq]

/-- An insertion is answered by what was inserted before, added or not. -/
theorem insert_snd_after (calls : List Call) (e : EntityId) (n : Node) :
    ((empty.after calls).insert e n).2 = true ↔ ∀ m, .insert e m ∈ calls → m.location ≠ n.location := by
  rw [insert_snd, Bool.not_eq_true', ← Bool.not_eq_true, records_iff, locations_after]
  have none : (empty.usages e).map Node.location = [] := rfl
  rw [none]
  constructor
  · intro new m before same
    exact new (Or.inr ⟨m, before, same⟩)
  · rintro new (absurd | ⟨m, before, same⟩)
    · cases absurd
    · exact new m before same

/-- **A ledger is its insertions.** An insertion adds its usage exactly if none was inserted for the entity at
that location before. The usages of an entity are the insertions that did, in order, the total is their
number, and draining gives those of one entity after another, each entity once and in the order in which
they came up, so that nothing is lost or repeated. Calls made in another order add as many usages, at
the same locations. -/
theorem ledger_is_its_insertions (calls : List Call) :
    (∀ e n, ((empty.after calls).insert e n).2 = true ↔
      ∀ m, .insert e m ∈ calls → m.location ≠ n.location) ∧
    (∀ e, (empty.after calls).usages e =
      ((empty.insertions calls).filter (Insertion.addedTo e)).map Insertion.node) ∧
    (empty.after calls).total = (empty.insertions calls).countP Insertion.added ∧
    (calls.map Call.entity).eraseDups.Nodup ∧
    (empty.after calls).nodes = (calls.map Call.entity).eraseDups.flatMap (empty.after calls).usages ∧
    (empty.after calls).nodes.Perm (((empty.insertions calls).filter Insertion.added).map Insertion.node) ∧
    (empty.after calls).nodes.length = (empty.after calls).total ∧
    ∀ others, calls.Perm others →
      (empty.insertions others).countP Insertion.added = (empty.insertions calls).countP Insertion.added ∧
      ∀ e location, location ∈ ((empty.after others).usages e).map Node.location ↔
        location ∈ ((empty.after calls).usages e).map Node.location := by
  have usages (e : EntityId) : (empty.after calls).usages e =
      ((empty.insertions calls).filter (Insertion.addedTo e)).map Insertion.node :=
    usages_after empty calls e
  have total (calls : List Call) : (empty.after calls).total = (empty.insertions calls).countP Insertion.added := by
    rw [total_after]
    exact Nat.zero_add _
  have once : (calls.map Call.entity).eraseDups.Nodup := order_after calls ▸ nodup_order _
  have nodes : (empty.after calls).nodes =
      (calls.map Call.entity).eraseDups.flatMap (empty.after calls).usages := by
    rw [nodes_eq, order_after]
  refine ⟨insert_snd_after calls, usages, total calls, once, nodes, ?_, length_nodes _, ?_⟩
  · have covered : ∀ i ∈ (empty.insertions calls).filter Insertion.added,
        i.entity ∈ (calls.map Call.entity).eraseDups := fun i hi =>
      List.mem_eraseDups.mpr (entity_of_mem_insertions (List.mem_of_mem_filter hi))
    have picked := (perm_flatMap_filter once covered).map Insertion.node
    rw [List.map_flatMap] at picked
    rw [nodes, funext usages]
    simpa only [filter_addedTo] using picked
  · intro others same
    -- which locations were inserted for an entity does not hang on the order
    have locations : ∀ e location, location ∈ ((empty.after others).usages e).map Node.location ↔
        location ∈ ((empty.after calls).usages e).map Node.location := by
      intro e location
      rw [locations_after, locations_after]
      simp only [same.mem_iff]
    refine ⟨?_, locations⟩
    rw [← total, ← total]
    refine total_eq_of_locations (distinct_empty.after others) (distinct_empty.after calls) ?_ locations
    intro e
    rw [contains_after, contains_after]
    simp only [same.mem_iff]

/-- Two usages of one entity at one place and a third one of another: two are kept in either order, and of
the two at one place the one that comes first. -/
theorem first_at_a_place_is_kept :
    [Call.insert ⟨1⟩ ⟨⟨5⟩, ⟨⟨9⟩, ⟨⟨1, 0⟩, ⟨1, 4⟩⟩⟩, "f", .function, .usage⟩, .register ⟨2⟩,
        .insert ⟨1⟩ ⟨⟨6⟩, ⟨⟨9⟩, ⟨⟨1, 0⟩, ⟨1, 4⟩⟩⟩, "g", .function, .usage⟩,
        .insert ⟨2⟩ ⟨⟨7⟩, ⟨⟨9⟩, ⟨⟨1, 0⟩, ⟨1, 4⟩⟩⟩, "x", .variable, .usage⟩].Perm
      [Call.insert ⟨2⟩ ⟨⟨7⟩, ⟨⟨9⟩, ⟨⟨1, 0⟩, ⟨1, 4⟩⟩⟩, "x", .variable, .usage⟩,
        .insert ⟨1⟩ ⟨⟨6⟩, ⟨⟨9⟩, ⟨⟨1, 0⟩, ⟨1, 4⟩⟩⟩, "g", .function, .usage⟩, .register ⟨2⟩,
        .insert ⟨1⟩ ⟨⟨5⟩, ⟨⟨9⟩, ⟨⟨1, 0⟩, ⟨1, 4⟩⟩⟩, "f", .function, .usage⟩] ∧
    (empty.insertions
      [Call.insert ⟨2⟩ ⟨⟨7⟩, ⟨⟨9⟩, ⟨⟨1, 0⟩, ⟨1, 4⟩⟩⟩, "x", .variable, .usage⟩,
        .insert ⟨1⟩ ⟨⟨6⟩, ⟨⟨9⟩, ⟨⟨1, 0⟩, ⟨1, 4⟩⟩⟩, "g", .function, .usage⟩, .register ⟨2⟩,
        .insert ⟨1⟩ ⟨⟨5⟩, ⟨⟨9⟩, ⟨⟨1, 0⟩, ⟨1, 4⟩⟩⟩, "f", .function, .usage⟩]).countP Insertion.added = 2 ∧
    (empty.after
      [Call.insert ⟨1⟩ ⟨⟨5⟩, ⟨⟨9⟩, ⟨⟨1, 0⟩, ⟨1, 4⟩⟩⟩, "f", .function, .usage⟩, .register ⟨2⟩,
        .insert ⟨1⟩ ⟨⟨6⟩, ⟨⟨9⟩, ⟨⟨1, 0⟩, ⟨1, 4⟩⟩⟩, "g", .function, .usage⟩,
        .insert ⟨2⟩ ⟨⟨7⟩, ⟨⟨9⟩, ⟨⟨1, 0⟩, ⟨1, 4⟩⟩⟩, "x", .variable, .usage⟩]).usages ⟨1⟩ =
      [⟨⟨5⟩, ⟨⟨9⟩, ⟨⟨1, 0⟩, ⟨1, 4⟩⟩⟩, "f", .function, .usage⟩] := by
  have same : [Call.insert ⟨1⟩ ⟨⟨5⟩, ⟨⟨9⟩, ⟨⟨1, 0⟩, ⟨1, 4⟩⟩⟩, "f", .function, .usage⟩, .register ⟨2⟩,
        .insert ⟨1⟩ ⟨⟨6⟩, ⟨⟨9⟩, ⟨⟨1, 0⟩, ⟨1, 4⟩⟩⟩, "g", .function, .usage⟩,
        .insert ⟨2⟩ ⟨⟨7⟩, ⟨⟨9⟩, ⟨⟨1, 0⟩, ⟨1, 4⟩⟩⟩, "x", .variable, .usage⟩].Perm _ :=
    (List.reverse_perm _).symm
  obtain ⟨_, usages, _, _, _, _, _, reordered⟩ := ledger_is_its_insertions _
  refine ⟨same, (reordered _ same).1.trans ?_, (usages ⟨1⟩).trans ?_⟩
  · decide
  · decide

end SymbolIndex.Ledger
