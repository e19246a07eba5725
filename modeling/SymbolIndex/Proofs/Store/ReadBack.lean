import SymbolIndex.Proofs.Store.Calls
import SymbolIndex.Proofs.Store.Lossless
import SymbolIndex.Store.Query

/-!
# `Proofs.Store.ReadBack` — what is written is what is read back

Between a record and its being read lie a column of signed integers, kinds that are spelled as words, keys
that leave records out, and an order that is an order of words. None of it loses or changes anything. The
row of a record reads as the record (`NodeRow.toNode?_ofNode` and its like), so that a reader which passes
over rows that it cannot read passes over none, and reading is choosing among the records that were kept.

That declarations come before usages rests on their words: "declaration" is before "usage" in the
alphabet.

## Contents
- `read_rows`, `filter_fresh`: choosing among rows that were written.
- `distinctNodes`, `distinctInClass`: the records that are kept.
- `Node.ReadsBefore`, `readOrder`: the order in which nodes are read.
- `written_is_read_back`.
-/

namespace SymbolIndex

open Vocabulary

/-- The nodes without repetitions of an identifier; the first of each stays. -/
def distinctNodes (nodes : List Node) : List Node :=
  nodes.eraseDupsBy fun a b => decide (a.id = b.id)

/-- The members of one class without repetitions; the first of each stays. -/
def distinctInClass (members : List ClassMember) : List ClassMember :=
  members.eraseDupsBy fun a b => decide (a.member = b.member ∧ a.kind = b.kind ∧ a.isStatic = b.isStatic)

/-- A node may be read before another one: declarations are before usages, and of either the nodes are in
the order of the lines and columns that they start at. -/
def Node.ReadsBefore (a b : Node) : Prop :=
  (b.type = .declaration → a.type = .declaration) ∧
    (a.type = b.type →
      a.location.range.start.line < b.location.range.start.line ∨
        a.location.range.start.line = b.location.range.start.line ∧
          a.location.range.start.column ≤ b.location.range.start.column)

namespace Store

variable {α ρ : Type}

/-! ## Choosing among rows -/

/-- Of rows of records, the ones that are chosen read as the records that are chosen. -/
theorem read_rows {row : α → ρ} {read : ρ → Option α} {p : ρ → Bool} {q : α → Bool} (records : List α)
    (back : ∀ a, read (row a) = some a) (same : ∀ a, p (row a) = q a) :
    ((records.map row).filter p).filterMap read = records.filter q := by
  have chosen : p ∘ row = q := funext same
  have whole : read ∘ row = some := funext back
  rw [List.filter_map, List.filterMap_map, chosen, whole, List.filterMap_some]

/-- If a chosen row clashes only with chosen ones, what a table takes can be chosen before or after. -/
theorem filter_fresh {clash clash' : ρ → ρ → Bool} {p : ρ → Bool}
    (own : ∀ a b, p a = true → clash a b = (p b && clash' a b)) (rows offer : List ρ) :
    (fresh clash rows offer).filter p = fresh clash' (rows.filter p) (offer.filter p) := by
  induction offer generalizing rows with
  | nil => rfl
  | cons a offer ih =>
    rw [fresh]
    by_cases chosen : p a = true
    · have met : taken clash rows a = taken clash' (rows.filter p) a := by
        unfold taken
        rw [List.any_filter]
        exact congrArg rows.any (funext fun b => own a b chosen)
      rw [List.filter_cons_of_pos chosen, fresh, ← met]
      split
      · exact ih rows
      · rw [List.filter_cons_of_pos chosen, ih, List.filter_append, List.filter_cons_of_pos chosen]
        rfl
    · rw [List.filter_cons_of_neg chosen]
      split
      · exact ih rows
      · rw [List.filter_cons_of_neg chosen, ih, List.filter_append, List.filter_cons_of_neg chosen,
          List.filter_nil, List.append_nil]

/-! ## The records that are kept -/

theorem mem_of_mem_distinct {same : α → α → Bool} {records : List α} {a : α}
    (h : a ∈ records.eraseDupsBy same) : a ∈ records := by
  rw [← fresh_nil_eq_eraseDupsBy] at h
  exact (fresh_sublist same [] records).subset h

/-- An empty table takes the distinct nodes. -/
theorem fresh_nodes (nodes : List Node) :
    fresh NodeRow.clash [] (nodes.map NodeRow.ofNode) = (distinctNodes nodes).map NodeRow.ofNode := by
  have mapped := fresh_map NodeRow.clash NodeRow.ofNode [] nodes
  rwa [fresh_nil_eq_eraseDupsBy] at mapped

/-- The distinct members that belong to a class are those of its members that are distinct in it. -/
theorem filter_distinctMembers (members : List ClassMember) (owner : EntityId) :
    (distinctMembers members).filter (fun m => m.owner = owner) =
      distinctInClass (members.filter fun m => m.owner = owner) := by
  unfold distinctMembers distinctInClass
  rw [← fresh_nil_eq_eraseDupsBy, ← fresh_nil_eq_eraseDupsBy]
  refine filter_fresh (fun a b chosen => ?_) [] members
  -- within a class the rest of the key decides
  have ours : a.owner = owner := of_decide_eq_true chosen
  rw [← Bool.decide_and]
  refine decide_eq_decide.mpr ?_
  unfold ClassMember.key
  rw [Prod.mk.injEq, Prod.mk.injEq, Prod.mk.injEq, ours]
  exact and_congr_left fun _ => eq_comm

/-! ## The order of nodes -/

/-- The order in which the rows of nodes are read. -/
def readOrder : Node → Node → Ordering :=
  compareLex (compareLex (compareLex (compareOn fun n => word n.type)
    (compareOn fun n => (n.location.range.start.line.toNat : Int)))
    (compareOn fun n => (n.location.range.start.column.toNat : Int))) (compareOn fun n => n.id.signed)

theorem compare_ofNode (a b : Node) : (NodeRow.ofNode a).compare (NodeRow.ofNode b) = readOrder a b := rfl

instance : Std.TransCmp readOrder := by
  unfold readOrder
  infer_instance

/-- Of the two words for the type of a node, "declaration" is the first. -/
theorem types_of_compare_word {a b : NodeType} (h : compare (word a) (word b) = .lt) :
    a = .declaration ∧ b = .usage := by
  revert h
  cases a <;> cases b <;> decide

/-- Nodes that are in order by their words and numbers are so by their types and places. -/
theorem readsBefore_of_readOrder {a b : Node} (h : (readOrder a b).isLE = true) : a.ReadsBefore b := by
  -- identifiers only decide between nodes of one type that start at one place
  have places := (Ordering.isLE_then_iff_and.mp h).1
  unfold compareLex at places
  rw [Ordering.isLE_then_iff_or, Ordering.then_eq_lt, Ordering.then_eq_eq] at places
  simp only [compareOn, Int.isLE_compare, Std.compare_eq_lt, Std.compare_eq_iff_eq, Int.ofNat_lt,
    Int.ofNat_inj, Int.ofNat_le, ← UInt32.lt_iff_toNat_lt, ← UInt32.le_iff_toNat_le,
    UInt32.toNat_inj] at places
  rcases places with (words | ⟨words, line⟩) | ⟨⟨words, line⟩, column⟩
  · obtain ⟨first, second⟩ := types_of_compare_word words
    exact ⟨fun _ => first, fun same => by rw [first, second] at same; cases same⟩
  · have type : a.type = b.type := word_injective _ _ words
    exact ⟨fun declared => type.trans declared, fun _ => Or.inl line⟩
  · have type : a.type = b.type := word_injective _ _ words
    exact ⟨fun declared => type.trans declared, fun _ => Or.inr ⟨line, column⟩⟩

/-- The rows of nodes are read in order, and all of them are. -/
theorem read_nodes (nodes : List Node) (name : String) :
    ∃ read, (((nodes.map NodeRow.ofNode).filter fun r => r.qualifiedName = name).mergeSort
        fun a b => (a.compare b).isLE).filterMap NodeRow.toNode? = read ∧
      read.Perm (nodes.filter fun n => n.qualifiedName = name) ∧ read.Pairwise Node.ReadsBefore := by
  let chosen := nodes.filter fun n => n.qualifiedName = name
  refine ⟨chosen.mergeSort fun a b => (readOrder a b).isLE, ?_, List.mergeSort_perm _ _, ?_⟩
  · have rows : ((nodes.map NodeRow.ofNode).filter fun r => r.qualifiedName = name) =
        chosen.map NodeRow.ofNode := List.filter_map
    rw [rows, ← List.map_mergeSort fun a _ b _ => congrArg Ordering.isLE (compare_ofNode a b).symm,
      List.filterMap_map]
    have whole : NodeRow.toNode? ∘ NodeRow.ofNode = some := funext NodeRow.toNode?_ofNode
    rw [whole, List.filterMap_some]
  · have sorted : (chosen.mergeSort fun a b => (readOrder a b).isLE).Pairwise
        fun a b => (readOrder a b).isLE = true := by
      apply List.pairwise_mergeSort
      · exact fun _ _ _ => Std.TransCmp.isLE_trans
      · intro a b
        have turned : readOrder b a = (readOrder a b).swap := Std.OrientedCmp.eq_swap
        rw [turned]
        cases readOrder a b <;> rfl
    exact sorted.imp readsBefore_of_readOrder

/-! ## A store that one batch has written -/

/-- Every row of records reads as one of them. -/
theorem exists_read {row : α → ρ} {read : ρ → Option α} {records : List α}
    (back : ∀ a, read (row a) = some a) : ∀ r ∈ records.map row, ∃ a ∈ records, read r = some a := by
  intro r hr
  obtain ⟨a, ha, rfl⟩ := List.mem_map.mp hr
  exact ⟨a, ha, back a⟩

/-- **What is written is what is read back.** A batch that is written to an empty store succeeds, whatever
identifiers, places and texts its records have. Under a name the nodes of that name are found which come
first with their identifiers, as they were written, declarations before usages and either by their lines
and columns. Of a class the members are those of the graph in their order, without later repetitions of
what, of which kind and whether static; of a file the imports are those of the graph in their order. All
rows of these tables can be read, so that nothing is passed over. -/
theorem written_is_read_back (files : List File) (g : Graph) :
    ∃ s report, (empty.persistBatch files g).result = .ok (s, report) ∧
      (∀ name, ∃ nodes, s.findNodes name = .ok nodes ∧
        nodes.Perm ((distinctNodes (g.nodes ++ g.usages)).filter fun n => n.qualifiedName = name) ∧
        nodes.Pairwise Node.ReadsBefore) ∧
      (∀ owner, s.membersOf owner = .ok (distinctInClass (g.members.filter fun m => m.owner = owner))) ∧
      (∀ importer, s.importsOf importer = .ok (g.imports.filter fun i => i.importer = importer)) ∧
      (∀ r ∈ s.nodes, ∃ n ∈ g.nodes ++ g.usages, r.toNode? = some n) ∧
      (∀ r ∈ s.members, ∃ m ∈ g.members, r.toMember? = some m) ∧
      ∀ r ∈ s.imports, ∃ i ∈ g.imports, r.toImport? = some i := by
  refine ⟨_, _, Regular.empty.persistBatch files g, ?_⟩
  rw [Batch.store_writeAll]
  simp only [empty, merge, List.nil_append, Graph.allNodes, fresh_nodes, fresh_members]
  have imports : fresh ImportRow.clash [] (g.imports.map ImportRow.ofImport) =
      g.imports.map ImportRow.ofImport := fresh_never _ _
  rw [imports]
  refine ⟨fun name => ?_, fun owner => ?_, fun importer => ?_, ?_, ?_, ?_⟩
  · obtain ⟨read, nodes, all, ordered⟩ := read_nodes (distinctNodes (g.nodes ++ g.usages)) name
    exact ⟨read, congrArg Except.ok nodes, all, ordered⟩
  · refine congrArg Except.ok ?_
    rw [← filter_distinctMembers]
    refine read_rows _ MemberRow.toMember?_ofMember fun m => ?_
    exact decide_eq_decide.mpr ⟨Datum.ofId_injective, fun same => congrArg Datum.ofId same⟩
  · refine congrArg Except.ok ?_
    refine read_rows _ ImportRow.toImport?_ofImport fun i => ?_
    exact decide_eq_decide.mpr ⟨Datum.ofId_injective, fun same => congrArg Datum.ofId same⟩
  · intro r hr
    obtain ⟨n, hn, same⟩ := exists_read NodeRow.toNode?_ofNode r hr
    exact ⟨n, mem_of_mem_distinct hn, same⟩
  · intro r hr
    obtain ⟨m, hm, same⟩ := exists_read MemberRow.toMember?_ofMember r hr
    exact ⟨m, mem_of_mem_distinct hm, same⟩
  · exact exists_read ImportRow.toImport?_ofImport

end Store

end SymbolIndex
