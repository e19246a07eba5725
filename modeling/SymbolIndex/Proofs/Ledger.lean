import SymbolIndex.Ledger
import SymbolIndex.Proofs.Dictionary
import SymbolIndex.Proofs.Keys

/-!
# `Proofs.Ledger` — what a ledger records

A ledger is read through two views: which entities it has an entry for (`contains`) and which usages it
keeps of each (`usages`). This module says what `register` and `insert` do to either, that the
locations of an entity stay distinct (`Ledger.Distinct`), and how the total moves.

## Contents
- One equation for each operation on each view; `insert_cases`.
- `Ledger.Distinct`, kept by both operations.
- `nodes_eq`, `mem_nodes_iff`, `pairwise_nodes`: the nodes of a ledger are the usages of its entities.
- `length_nodes`: how many there are.
- `perm_nodes`: ledgers that say the same of each entity have the same nodes, in some order.
-/

namespace SymbolIndex.Ledger

variable {l : Ledger} {e x : EntityId} {n : Node}

/-- The usages of an entity are those of its entry. -/
theorem usages_of_find? {entry : Entry} (found : l.entries.find? e = some entry) :
    l.usages e = entry.nodes := by
  unfold usages
  rw [found]

/-- An entity without an entry has none. -/
theorem usages_of_absent (h : l.contains e = false) : l.usages e = [] := by
  unfold contains Dictionary.contains at h
  unfold usages
  cases found : l.entries.find? e with
  | none => rfl
  | some entry => rw [found] at h; cases h

/-- The order of registration has the entities that have an entry, each of them once. -/
theorem mem_order_iff : e ∈ l.order ↔ l.contains e = true := by
  rw [l.order_eq]
  exact Dictionary.contains_iff.symm

theorem nodup_order (l : Ledger) : l.order.Nodup := by
  rw [l.order_eq]
  exact l.entries.nodup_keys

/-! ## `register` -/

/-- Registering an entity opens an entry for it and for no other. -/
theorem contains_register (l : Ledger) (e x : EntityId) :
    (l.register e).contains x = true ↔ x = e ∨ l.contains x = true := by
  unfold register
  split
  · rename_i known
    exact ⟨Or.inr, fun h => h.elim (fun same => same ▸ known) id⟩
  · unfold contains Dictionary.contains
    rw [Dictionary.find?_put]
    by_cases same : e = x
    · simp [same]
    · simp [same, Ne.symm same]

theorem contains_register_self (l : Ledger) (e : EntityId) : (l.register e).contains e = true :=
  (contains_register l e e).mpr (Or.inl rfl)

/-- Entities stand in the order in which they were registered first. -/
theorem order_register (l : Ledger) (e : EntityId) :
    (l.register e).order = if l.contains e then l.order else l.order ++ [e] := by
  unfold register
  split
  · rfl
  · rfl

/-- Registering brings no usage and loses none. -/
@[simp] theorem usages_register (l : Ledger) (e x : EntityId) :
    (l.register e).usages x = l.usages x := by
  unfold register
  split
  · rfl
  · rename_i absent
    by_cases same : e = x
    · subst same
      rw [usages_of_absent (Bool.eq_false_iff.mpr absent)]
      simp [usages, Dictionary.find?_put]
    · simp [usages, Dictionary.find?_put, same]

@[simp] theorem records_register (l : Ledger) (e x : EntityId) (location : Location) :
    (l.register e).records x location = l.records x location := by
  unfold records
  rw [usages_register]

/-! ## `replace` -/

section Replace

variable {entry : Entry} (known : l.contains e = true)

/-- A replaced entry is seen by its own entity alone. -/
theorem usages_replace (x : EntityId) :
    (l.replace e entry known).usages x = if x = e then entry.nodes else l.usages x := by
  unfold replace
  by_cases same : e = x
  · subst same
    rw [if_pos rfl]
    refine usages_of_find? ?_
    rw [Dictionary.find?_put, if_pos rfl]
  · unfold usages
    rw [Dictionary.find?_put, if_neg same, if_neg (Ne.symm same)]

theorem contains_replace (x : EntityId) : (l.replace e entry known).contains x = l.contains x := by
  rw [Bool.eq_iff_iff, ← mem_order_iff, ← mem_order_iff]
  rfl

end Replace

/-! ## `insert` -/

/-- The locations that an entry keeps are those of the usages. -/
theorem mem_seen_iff {entry : Entry} {location : Location} (found : l.entries.find? e = some entry) :
    location ∈ entry.seen ↔ l.records e location = true := by
  unfold records
  rw [usages_of_find? found, entry.seen_eq]
  simp

/-- What an insertion can do: register the entity, or register it and add the usage to its entry. -/
theorem insert_cases (l : Ledger) (e : EntityId) (n : Node) :
    (l.records e n.location = true ∧ l.insert e n = (l.register e, false)) ∨
      (l.records e n.location = false ∧ ∃ entry known, (l.register e).entries.find? e = some entry ∧
        l.insert e n = ((l.register e).replace e (entry.add n) known, true)) := by
  have known := contains_register_self l e
  unfold insert
  dsimp only
  split
  · rename_i none
    unfold contains Dictionary.contains at known
    rw [none] at known
    cases known
  · rename_i entry found
    by_cases seen : n.location ∈ entry.seen
    · have recorded := (mem_seen_iff found).mp seen
      rw [records_register] at recorded
      exact Or.inl ⟨recorded, if_pos seen⟩
    · have free := mt (mem_seen_iff found).mpr seen
      rw [records_register, Bool.not_eq_true] at free
      exact Or.inr ⟨free, entry, known, found, if_neg seen⟩

/-- A usage is added unless one at its location is there. -/
theorem insert_snd (l : Ledger) (e : EntityId) (n : Node) :
    (l.insert e n).2 = !l.records e n.location := by
  rcases insert_cases l e n with ⟨known, same⟩ | ⟨free, entry, _, _, same⟩
  · rw [same, known]
    rfl
  · rw [same, free]
    rfl

/-- An insertion registers its entity, whether it adds the usage or not. -/
theorem contains_insert (l : Ledger) (e x : EntityId) (n : Node) :
    (l.insert e n).1.contains x = true ↔ x = e ∨ l.contains x = true := by
  rcases insert_cases l e n with ⟨_, same⟩ | ⟨_, entry, known, _, same⟩
  · rw [same]
    exact contains_register l e x
  · rw [same]
    show ((l.register e).replace e (entry.add n) known).contains x = true ↔ _
    rw [contains_replace]
    exact contains_register l e x

/-- An insertion keeps the order of entities as registering its entity does. -/
theorem order_insert (l : Ledger) (e : EntityId) (n : Node) :
    (l.insert e n).1.order = (l.register e).order := by
  rcases insert_cases l e n with ⟨_, same⟩ | ⟨_, entry, known, _, same⟩
  · rw [same]
  · rw [same]
    rfl

/-- What `insert` does to the usages of an entity: the new one goes to the end, if it is added. -/
theorem usages_insert (l : Ledger) (e x : EntityId) (n : Node) :
    (l.insert e n).1.usages x =
      if x = e ∧ l.records e n.location = false then l.usages x ++ [n] else l.usages x := by
  rcases insert_cases l e n with ⟨recorded, same⟩ | ⟨free, entry, known, found, same⟩
  · rw [same, if_neg (by simp [recorded])]
    exact usages_register l e x
  · rw [same]
    show ((l.register e).replace e (entry.add n) known).usages x = _
    rw [usages_replace]
    by_cases owner : x = e
    · subst owner
      rw [if_pos rfl, if_pos ⟨rfl, free⟩, ← usages_register l x x, usages_of_find? found]
      rfl
    · rw [if_neg owner, if_neg fun h => owner h.1]
      exact usages_register l e x

/-- A location is recorded for an entity if one of its usages is there. -/
theorem records_iff {location : Location} :
    l.records e location = true ↔ location ∈ (l.usages e).map Node.location := by
  simp [records]

/-- The locations of an entity are the ones it had and the one of the usage. -/
theorem locations_insert (l : Ledger) (e x : EntityId) (n : Node) {location : Location} :
    location ∈ ((l.insert e n).1.usages x).map Node.location ↔
      location ∈ (l.usages x).map Node.location ∨ e = x ∧ n.location = location := by
  rw [usages_insert]
  by_cases owned : x = e
  · subst owned
    by_cases free : l.records x n.location = false
    · rw [if_pos ⟨rfl, free⟩, List.map_append, List.mem_append, List.map_singleton, List.mem_singleton]
      exact or_congr Iff.rfl ⟨fun h => ⟨rfl, h.symm⟩, fun h => h.2.symm⟩
    · rw [if_neg fun h => free h.2]
      -- the location is there already
      have known : n.location ∈ (l.usages x).map Node.location := records_iff.mp (Bool.of_not_eq_false free)
      exact ⟨Or.inl, fun h => h.elim id fun same => same.2 ▸ known⟩
  · rw [if_neg fun h => owned h.1]
    exact ⟨Or.inl, fun h => h.elim id fun same => absurd same.1.symm owned⟩

/-! ## Distinct locations -/

/-- No entity has two usages at one location. -/
def Distinct (l : Ledger) : Prop :=
  ∀ e, ((l.usages e).map Node.location).Nodup

theorem distinct_empty : Distinct empty :=
  fun _ => List.nodup_nil

/-- Registering keeps the locations of every entity distinct. -/
theorem Distinct.register (h : l.Distinct) (e : EntityId) : (l.register e).Distinct := by
  intro x
  rw [usages_register]
  exact h x

/-- Inserting keeps the locations of every entity distinct: a usage at a location that is there is not
added. -/
theorem Distinct.insert (h : l.Distinct) (e : EntityId) (n : Node) : (l.insert e n).1.Distinct := by
  intro x
  rw [usages_insert]
  split
  · rename_i added
    obtain ⟨rfl, free⟩ := added
    rw [← Bool.not_eq_true, records_iff] at free
    refine nodup_keys_append (h x) (List.nodup_singleton _) ?_
    intro m hm old hold same
    rw [List.mem_singleton.mp hm] at same
    exact free (List.mem_map.mpr ⟨old, hold, same⟩)
  · exact h x

/-! ## Nodes -/

/-- Draining reads each entity once, so nothing that it takes out is missed later. -/
theorem drain_eq_flatMap {order : List EntityId} (once : order.Nodup) (entries : Dictionary EntityId Entry) :
    drain order entries = order.flatMap fun e => ((entries.find? e).map Entry.nodes).getD [] := by
  induction order generalizing entries with
  | nil => rfl
  | cons e order ih =>
    rw [List.nodup_cons] at once
    rw [List.flatMap_cons, drain]
    cases found : entries.find? e with
    | none =>
      show drain order entries = [] ++ _
      rw [List.nil_append, ih once.2]
    | some entry =>
      show entry.nodes ++ drain order (entries.erase e) = entry.nodes ++ _
      rw [ih once.2]
      -- the entities that are left are others than the one whose entry is gone
      refine congrArg (entry.nodes ++ ·) (List.flatMap_congr fun x hx => ?_)
      have other : e ≠ x := fun same => once.1 (same ▸ hx)
      rw [Dictionary.find?_erase, if_neg other]

/-- **The nodes of a ledger** are the usages of its entities, in order of registration. -/
theorem nodes_eq (l : Ledger) : l.nodes = l.order.flatMap l.usages := by
  unfold nodes
  rw [drain_eq_flatMap l.nodup_order]
  refine List.flatMap_congr fun e _ => ?_
  unfold usages
  cases l.entries.find? e <;> rfl

/-- A node of the ledger is a usage of some entity. -/
theorem mem_nodes_iff : n ∈ l.nodes ↔ ∃ e, n ∈ l.usages e := by
  rw [nodes_eq, List.mem_flatMap]
  constructor
  · rintro ⟨e, _, hn⟩
    exact ⟨e, hn⟩
  · rintro ⟨e, hn⟩
    refine ⟨e, mem_order_iff.mpr ?_, hn⟩
    by_contra absent
    rw [usages_of_absent (Bool.eq_false_iff.mpr absent)] at hn
    cases hn

@[simp] theorem mem_nodes_register (l : Ledger) (e : EntityId) (n : Node) :
    n ∈ (l.register e).nodes ↔ n ∈ l.nodes := by
  simp only [mem_nodes_iff, usages_register]

/-- Ledgers that say the same of each entity have the same nodes, in some order. -/
theorem perm_nodes {l' : Ledger} (contains : ∀ e, l.contains e = l'.contains e)
    (usages : ∀ e, l.usages e = l'.usages e) : l.nodes.Perm l'.nodes := by
  have orders : l.order.Perm l'.order := by
    refine (List.perm_ext_iff_of_nodup l.nodup_order l'.nodup_order).mpr ?_
    intro e
    rw [mem_order_iff, mem_order_iff, contains]
  rw [nodes_eq, nodes_eq, show l.usages = l'.usages from funext usages]
  exact orders.flatMap_right l'.usages

/-! ## Totals -/

/-- The total adds up the lengths of the entries, so it is the length of all of them together. -/
theorem foldl_nodes (entries : List Entry) (count : Nat) :
    entries.foldl (fun n entry => n + entry.nodes.length) count =
      count + (entries.flatMap Entry.nodes).length := by
  induction entries generalizing count with
  | nil => rfl
  | cons entry entries ih =>
    rw [List.foldl_cons, ih, List.flatMap_cons, List.length_append, Nat.add_assoc]

theorem total_eq (l : Ledger) : l.total = (l.entries.pairs.flatMap fun pair => pair.2.nodes).length := by
  unfold total Dictionary.values
  rw [foldl_nodes, Nat.zero_add, List.flatMap_map]

/-- **No usage is lost or repeated** when the entries are drained. -/
theorem length_nodes (l : Ledger) : l.nodes.length = l.total := by
  rw [nodes_eq, total_eq, l.order_eq]
  unfold Dictionary.keys
  rw [List.flatMap_map]
  refine congrArg List.length (List.flatMap_congr ?_)
  intro pair hp
  exact usages_of_find? (Dictionary.mem_pairs_iff.mp hp)

@[simp] theorem total_register (l : Ledger) (e : EntityId) : (l.register e).total = l.total := by
  rw [← length_nodes, ← length_nodes, nodes_eq, nodes_eq, funext (usages_register l e), order_register]
  split
  · rfl
  · rename_i absent
    rw [List.flatMap_append, List.flatMap_singleton, usages_of_absent (Bool.eq_false_iff.mpr absent),
      List.append_nil]

/-- Replacing an entry changes the total by the difference of the two. -/
theorem total_replace {entry : Entry} (known : l.contains e = true) :
    (l.replace e entry known).total + (l.usages e).length = l.total + entry.nodes.length := by
  have old : l.usages e = ((l.entries.find? e).map Entry.nodes).getD [] := by
    unfold usages
    cases l.entries.find? e <;> rfl
  rw [total_eq, total_eq, old]
  exact Pairs.length_flatMap_put Entry.nodes e entry l.entries.pairs

/-- **An insertion adds one usage to the total, or none** where its location was there. -/
theorem total_insert (l : Ledger) (e : EntityId) (n : Node) :
    (l.insert e n).1.total = l.total + if l.records e n.location then 0 else 1 := by
  rcases insert_cases l e n with ⟨recorded, same⟩ | ⟨free, entry, known, found, same⟩
  · rw [same, recorded]
    exact total_register l e
  · rw [same, free]
    -- the entry has one usage more than the one that it takes the place of
    have grown : ((l.register e).replace e (entry.add n) known).total + ((l.register e).usages e).length =
        (l.register e).total + (entry.add n).nodes.length := total_replace known
    have longer : (entry.add n).nodes.length = ((l.register e).usages e).length + 1 := by
      rw [usages_of_find? found]
      exact List.length_append
    rw [total_register, longer] at grown
    show ((l.register e).replace e (entry.add n) known).total = l.total + 1
    omega

end SymbolIndex.Ledger
