import Mathlib.Data.List.Induction
import SymbolIndex.Proofs.Store.Calls
import SymbolIndex.Proofs.Store.Lossless

/-!
# `Proofs.Store.FirstWriter` — the first writer of a key wins, and every record is accounted for

A batch goes through its records one by one. A record whose key is taken at that moment, by an old row or
by a record that the batch has just written, is left out; every other one becomes a row behind the rows
that are there. `FirstCome` says this of one table, record by record, and names the keys as conditions on
two rows, without the computation that the batch performs.

The accounts follow: what has been written is the number of new rows in all tables, and a conflict is a
node, an entity or a relation that has been left out. Files that are known and the variables of functions
that are left out count as neither. Variables of functions need an argument of their own. They have a key
of theirs, but no row of a store that calls have reached can hold it, since such rows come only with their
functions (`Owned`); so a function that is taken brings all its variables.

## Contents
- `FirstCome`, `FirstCome.append`, `FirstCome.nodup_keys`; `exists_firstCome`.
- `Batch.writeFunctions_first`: functions with their variables.
- `Addition`: what a batch adds; `FirstWriters`, `writeAll_first`.
- `batches_are_first_writer_merges`.
-/

namespace SymbolIndex.Store

variable {α ρ : Type}

/-! ## One table -/

/-- Of an `offer`, made record by record to a table of some `rows`, the records `added` are taken: those
whose row has the same key as none of the rows that are there by then. -/
inductive FirstCome (row : α → ρ) (same : ρ → ρ → Prop) (rows : List ρ) :
    (offer added : List α) → Prop
  | nothing : FirstCome row same rows [] []
  | leftOut {offer added : List α} {a : α} {r : ρ} (before : FirstCome row same rows offer added)
      (there : r ∈ rows ++ added.map row) (clashes : same (row a) r) :
      FirstCome row same rows (offer ++ [a]) added
  | taken {offer added : List α} {a : α} (before : FirstCome row same rows offer added)
      (free : ∀ r ∈ rows ++ added.map row, ¬ same (row a) r) :
      FirstCome row same rows (offer ++ [a]) (added ++ [a])

/-- What is taken is a part of the offer, in the same order. -/
theorem FirstCome.sublist {row : α → ρ} {same : ρ → ρ → Prop} {rows : List ρ} {offer added : List α}
    (h : FirstCome row same rows offer added) : added.Sublist offer := by
  induction h with
  | nothing => exact .slnil
  | leftOut _ _ _ ih => exact ih.trans (List.sublist_append_left _ _)
  | taken _ _ ih => exact ih.append (List.Sublist.refl _)

/-- The row of every record is there in the end, where no other row has its key. -/
theorem FirstCome.row_mem {row : α → ρ} {rows : List ρ} {offer added : List α}
    (h : FirstCome row Eq rows offer added) {a : α} (ha : a ∈ offer) : row a ∈ rows ++ added.map row := by
  induction h with
  | nothing => cases ha
  | leftOut _ there clashes ih =>
    rcases List.mem_append.mp ha with earlier | last
    · exact ih earlier
    · rw [List.mem_singleton.mp last, clashes]
      exact there
  | taken _ _ ih =>
    rw [List.map_append, ← List.append_assoc]
    rcases List.mem_append.mp ha with earlier | last
    · exact List.mem_append_left _ (ih earlier)
    · exact List.mem_append_right _ (List.mem_map.mpr ⟨_, last, rfl⟩)

/-- What a table takes of a second offer it takes behind what it took of the first. -/
theorem FirstCome.append {row : α → ρ} {same : ρ → ρ → Prop} {rows : List ρ}
    {offer offer' added added' : List α} (first : FirstCome row same rows offer added)
    (second : FirstCome row same (rows ++ added.map row) offer' added') :
    FirstCome row same rows (offer ++ offer') (added ++ added') := by
  induction second with
  | nothing => simpa using first
  | leftOut _ there clashes ih =>
    rw [← List.append_assoc]
    refine ih.leftOut ?_ clashes
    rwa [List.map_append, ← List.append_assoc]
  | taken _ free ih =>
    rw [← List.append_assoc, ← List.append_assoc]
    refine ih.taken ?_
    rwa [List.map_append, ← List.append_assoc]

/-- Where rows of one key may not stand together, no key comes twice. -/
theorem FirstCome.nodup_keys {κ : Type} {key : ρ → κ} {row : α → ρ} {same : ρ → ρ → Prop} {rows : List ρ}
    {offer added : List α} (h : FirstCome row same rows offer added)
    (covers : ∀ a b, key a = key b → same a b) (distinct : (rows.map key).Nodup) :
    ((rows ++ added.map row).map key).Nodup := by
  induction h with
  | nothing => simpa using distinct
  | leftOut _ _ _ ih => exact ih
  | taken _ free ih =>
    rw [List.map_append (f := row), ← List.append_assoc]
    apply nodup_keys_append ih
    · simp
    · intro y hy x hx equal
      rw [List.map_singleton, List.mem_singleton] at hy
      subst hy
      exact free x hx (covers _ _ equal.symm)

/-- A second offer meets the table with what it took of the first. -/
theorem fresh_append (clash : ρ → ρ → Bool) (rows first second : List ρ) :
    fresh clash rows (first ++ second) =
      fresh clash rows first ++ fresh clash (rows ++ fresh clash rows first) second := by
  induction first generalizing rows with
  | nil => simp [fresh]
  | cons row first ih =>
    simp only [List.cons_append, fresh]
    split
    · exact ih rows
    · rw [ih (rows ++ [row]), List.cons_append, List.append_assoc, List.singleton_append]

/-- **What a table takes is what comes first**, if its clash is that of a key. -/
theorem exists_firstCome {clash : ρ → ρ → Bool} {same : ρ → ρ → Prop}
    (decides : ∀ a b, clash a b = true ↔ same a b) (row : α → ρ) (rows : List ρ) (offer : List α) :
    ∃ added, FirstCome row same rows offer added ∧
      fresh clash rows (offer.map row) = added.map row := by
  induction offer using List.reverseRecOn with
  | nil => exact ⟨[], .nothing, rfl⟩
  | append_singleton offer a ih =>
    obtain ⟨added, before, taken⟩ := ih
    rw [List.map_append, fresh_append, taken]
    -- the last record meets the rows that are there once the others have been offered
    by_cases there : Store.taken clash (rows ++ added.map row) (row a) = true
    · obtain ⟨r, hr, clashes⟩ := List.any_eq_true.mp there
      refine ⟨added, .leftOut before hr ((decides _ r).mp clashes), ?_⟩
      simp [fresh, there]
    · refine ⟨added ++ [a], .taken before ?_, ?_⟩
      · intro r hr clashes
        exact there (List.any_eq_true.mpr ⟨r, hr, (decides _ r).mpr clashes⟩)
      · simp [fresh, there]

/-! ## The keys of the tables -/

theorem sameKey_iff {κ : Type} [DecidableEq κ] (key : ρ → κ) (a b : ρ) :
    sameKey key a b = true ↔ key a = key b :=
  decide_eq_true_iff

theorem file_clash_iff (a b : FileRow) : FileRow.clash a b = true ↔ a.id = b.id ∨ a.path = b.path := by
  unfold FileRow.clash
  rw [Bool.or_eq_true, decide_eq_true_iff, decide_eq_true_iff]

theorem node_clash_iff (a b : NodeRow) : NodeRow.clash a b = true ↔ a.id = b.id :=
  sameKey_iff NodeRow.id a b

theorem entity_clash_iff (a b : EntityRow) : EntityRow.clash a b = true ↔ a.id = b.id :=
  sameKey_iff EntityRow.id a b

theorem member_clash_iff (a b : MemberRow) : MemberRow.clash a b = true ↔
    a.owner = b.owner ∧ a.member = b.member ∧ a.kind = b.kind ∧ a.isStatic = b.isStatic := by
  unfold MemberRow.clash
  rw [sameKey_iff, Prod.mk.injEq, Prod.mk.injEq, Prod.mk.injEq]

theorem inheritance_clash_iff (a b : InheritanceRow) : InheritanceRow.clash a b = true ↔
    a.derived = b.derived ∧ a.base = b.base := by
  unfold InheritanceRow.clash
  rw [sameKey_iff, id, id, InheritanceRow.mk.injEq]

theorem import_clash_iff (a b : ImportRow) : ImportRow.clash a b = true ↔ False := by
  simp [ImportRow.clash, never]

theorem documentation_clash_iff (a b : DocumentationRow) : DocumentationRow.clash a b = true ↔
    a.documented = b.documented ∧ a.kind = b.kind := by
  unfold DocumentationRow.clash
  rw [sameKey_iff, Prod.mk.injEq]

theorem type_clash_iff (a b : TypeRow) : TypeRow.clash a b = true ↔
    a.symbol = b.symbol ∧ a.type = b.type := by
  unfold TypeRow.clash
  rw [sameKey_iff, id, id, TypeRow.mk.injEq]

/-! ## Functions -/

theorem not_mem_ids_of_free {rows : List EntityRow} {e : Entity}
    (free : ∀ r ∈ rows, ¬ (EntityRow.ofEntity e).id = r.id) : e.id ∉ rows.map EntityRow.id := by
  intro there
  obtain ⟨r, hr, same⟩ := List.mem_map.mp there
  exact free r hr same.symm

namespace Batch

/-- What functions leave in a batch: rows for the ones that come first, and rows for all variables of
these. -/
theorem writeFunctions_first {b : Batch} (owned : b.store.Owned) (functions : List Function) :
    ∃ added, FirstCome (fun f => EntityRow.ofEntity f.entity) (fun a b => a.id = b.id)
        b.store.functions functions added ∧
      (b.writeFunctions functions).store = { b.store with
        functions := b.store.functions ++ added.map fun f => EntityRow.ofEntity f.entity
        functionVariables :=
          b.store.functionVariables ++ added.flatMap FunctionVariableRow.ofFunction } ∧
      (b.writeFunctions functions).report =
        ⟨b.report.written + (added.length + (added.flatMap FunctionVariableRow.ofFunction).length),
          b.report.conflicts + (functions.length - added.length)⟩ := by
  induction functions using List.reverseRecOn with
  | nil => exact ⟨[], .nothing, by simp [writeFunctions], by simp [writeFunctions]⟩
  | append_singleton functions f ih =>
    obtain ⟨added, before, store, report⟩ := ih
    have shorter := before.sublist.length_le
    have last : b.writeFunctions (functions ++ [f]) = (b.writeFunctions functions).writeFunction f :=
      List.foldl_append
    have ownedThen := owned.writeFunctions functions
    rw [last]
    generalize b.writeFunctions functions = c at store report ownedThen ⊢
    have rows : c.store.functions =
        b.store.functions ++ added.map fun f => EntityRow.ofEntity f.entity := by rw [store]
    by_cases there : Store.taken EntityRow.clash c.store.functions (EntityRow.ofEntity f.entity) = true
    · obtain ⟨r, hr, clashes⟩ := List.any_eq_true.mp there
      have left : c.writeFunction f = c.count .functions 1 0 c.store := if_pos there
      refine ⟨added, .leftOut before (rows ▸ hr) ((entity_clash_iff _ r).mp clashes), ?_, ?_⟩
      · rw [left]
        exact store
      · rw [left]
        simp only [count, report, List.length_append, List.length_singleton, BatchReport.mk.injEq]
        omega
    · have free : ∀ r ∈ c.store.functions, ¬ (EntityRow.ofEntity f.entity).id = r.id := fun r hr same =>
        there (List.any_eq_true.mpr ⟨r, hr, (entity_clash_iff _ r).mpr same⟩)
      have new := not_mem_ids_of_free free
      -- no row of a variable names a function that is not there
      have alone : ∀ r ∈ c.store.functionVariables, r.functionId ≠ .ofId f.entity.id := by
        intro r hr same
        obtain ⟨owner, hown, own⟩ := ownedThen r hr
        exact free owner hown (Datum.ofId_injective (same.symm.trans own))
      refine ⟨added ++ [f], .taken before (rows ▸ free), ?_, ?_⟩
      · rw [writeFunction_all new alone]
        simp only [take, store, List.map_append, List.map_singleton, List.flatMap_append,
          List.flatMap_singleton, List.append_assoc]
      · rw [writeFunction_all new alone]
        simp only [take, report, List.flatMap_append, List.flatMap_singleton, List.length_append,
          List.length_singleton, BatchReport.mk.injEq]
        omega

end Batch

/-! ## A batch -/

/-- The records that a batch adds. -/
structure Addition where
  files : List File
  nodes : List Node
  vars : List Variable
  functions : List Function
  classes : List Class
  members : List ClassMember
  inheritance : List Inheritance
  imports : List Import
  documentation : List Documentation
  types : List TypeAssociation

namespace Addition

/-- How many nodes, entities and relations are added. -/
def records (a : Addition) : Nat :=
  a.nodes.length + (a.vars.length + a.functions.length + a.classes.length) +
    (a.members.length + a.inheritance.length + a.imports.length + a.documentation.length +
      a.types.length)

/-- A store with the rows of what is added behind its own, in every table. -/
def appendedTo (a : Addition) (s : Store) : Store :=
  { s with
    files := s.files ++ a.files.map FileRow.ofFile
    nodes := s.nodes ++ a.nodes.map NodeRow.ofNode
    vars := s.vars ++ a.vars.map fun v => EntityRow.ofEntity v.entity
    functions := s.functions ++ a.functions.map fun f => EntityRow.ofEntity f.entity
    functionVariables := s.functionVariables ++ a.functions.flatMap FunctionVariableRow.ofFunction
    classes := s.classes ++ a.classes.map fun c => EntityRow.ofEntity c.entity
    members := s.members ++ a.members.map MemberRow.ofMember
    inheritance := s.inheritance ++ a.inheritance.map InheritanceRow.ofInheritance
    imports := s.imports ++ a.imports.map ImportRow.ofImport
    documentation := s.documentation ++ a.documentation.map DocumentationRow.ofDocumentation
    types := s.types ++ a.types.map TypeRow.ofType }

end Addition

/-- What is added of files and of a graph is what comes first under the key of each table. -/
structure FirstWriters (s : Store) (files : List File) (g : Graph) (a : Addition) : Prop where
  files : FirstCome FileRow.ofFile (fun a b => a.id = b.id ∨ a.path = b.path) s.files files a.files
  nodes : FirstCome NodeRow.ofNode (fun a b => a.id = b.id) s.nodes (g.nodes ++ g.usages) a.nodes
  vars : FirstCome (fun v => EntityRow.ofEntity v.entity) (fun a b => a.id = b.id) s.vars g.vars a.vars
  functions : FirstCome (fun f => EntityRow.ofEntity f.entity) (fun a b => a.id = b.id) s.functions
    g.functions a.functions
  classes : FirstCome (fun c => EntityRow.ofEntity c.entity) (fun a b => a.id = b.id) s.classes
    g.classes a.classes
  members : FirstCome MemberRow.ofMember
    (fun a b => a.owner = b.owner ∧ a.member = b.member ∧ a.kind = b.kind ∧ a.isStatic = b.isStatic)
    s.members g.members a.members
  inheritance : FirstCome InheritanceRow.ofInheritance
    (fun a b => a.derived = b.derived ∧ a.base = b.base) s.inheritance g.inheritance a.inheritance
  /-- Imports have no key. -/
  imports : FirstCome ImportRow.ofImport (fun _ _ => False) s.imports g.imports a.imports
  documentation : FirstCome DocumentationRow.ofDocumentation
    (fun a b => a.documented = b.documented ∧ a.kind = b.kind) s.documentation g.documentation
    a.documentation
  types : FirstCome TypeRow.ofType (fun a b => a.symbol = b.symbol ∧ a.type = b.type) s.types g.types
    a.types

/-- The number of rows in all tables. -/
def rowCount (s : Store) : Nat :=
  (Vocabulary.all : List TableName).foldl (fun n t => n + s.size t) 0

theorem rowCount_eq (s : Store) : s.rowCount = s.files.length + s.actions.length + s.sources.length +
    s.nodes.length + s.vars.length + s.functions.length + s.functionVariables.length +
    s.classes.length + s.members.length + s.inheritance.length + s.imports.length +
    s.documentation.length + s.types.length := by
  show 0 + s.files.length + _ + _ + _ + _ + _ + _ + _ + _ + _ + _ + _ + _ = _
  rw [Nat.zero_add]
  rfl

/-! ### All stages -/

/-- **What a batch adds, and what it counts.** The conflicts are the records of the graph that are not
added. -/
theorem writeAll_first {s : Store} (owned : s.Owned) (files : List File) (g : Graph) :
    ∃ a, FirstWriters s files g a ∧
      (Batch.writeAll { store := s } files g).store = a.appendedTo s ∧
      (Batch.writeAll { store := s } files g).report.written =
        a.files.length + a.records + (a.functions.flatMap FunctionVariableRow.ofFunction).length ∧
      (Batch.writeAll { store := s } files g).report.conflicts + a.records = g.counts.total := by
  obtain ⟨newFiles, hfiles, filesTaken⟩ :=
    exists_firstCome file_clash_iff FileRow.ofFile s.files files
  obtain ⟨nodes, hnodes, nodesTaken⟩ :=
    exists_firstCome node_clash_iff NodeRow.ofNode s.nodes g.allNodes
  obtain ⟨vars, hvars, varsTaken⟩ := exists_firstCome entity_clash_iff
    (fun v : Variable => EntityRow.ofEntity v.entity) s.vars g.vars
  obtain ⟨classes, hclasses, classesTaken⟩ := exists_firstCome entity_clash_iff
    (fun c : Class => EntityRow.ofEntity c.entity) s.classes g.classes
  obtain ⟨members, hmembers, membersTaken⟩ :=
    exists_firstCome member_clash_iff MemberRow.ofMember s.members g.members
  obtain ⟨inheritance, hinheritance, inheritanceTaken⟩ :=
    exists_firstCome inheritance_clash_iff InheritanceRow.ofInheritance s.inheritance g.inheritance
  obtain ⟨imports, himports, importsTaken⟩ :=
    exists_firstCome import_clash_iff ImportRow.ofImport s.imports g.imports
  obtain ⟨documentation, hdocumentation, documentationTaken⟩ := exists_firstCome documentation_clash_iff
    DocumentationRow.ofDocumentation s.documentation g.documentation
  obtain ⟨types, htypes, typesTaken⟩ := exists_firstCome type_clash_iff TypeRow.ofType s.types g.types
  -- functions are written to the batch that the stages before them leave
  obtain ⟨functions, hfunctions, store, report⟩ := Batch.writeFunctions_first
    (b := ((Batch.writeFiles { store := s } files).writeNodes g.allNodes).writeVariables g.vars)
    owned g.functions
  refine ⟨⟨newFiles, nodes, vars, functions, classes, members, inheritance, imports, documentation,
    types⟩, ⟨hfiles, hnodes, hvars, hfunctions, hclasses, hmembers, hinheritance, himports, hdocumentation,
    htypes⟩, ?_⟩
  unfold Batch.writeAll
  dsimp only
  generalize (((Batch.writeFiles { store := s } files).writeNodes g.allNodes).writeVariables
    g.vars).writeFunctions g.functions = written at store report ⊢
  simp only [Batch.writeFiles, Batch.writeNodes, Batch.writeVariables, Batch.writeRows, Batch.count,
    filesTaken, nodesTaken, varsTaken, List.length_map] at store report
  simp only [Batch.writeClasses, Batch.takeMembers, Batch.writeInheritance, Batch.takeImports,
    Batch.writeDocumentation, Batch.writeTypes, Batch.writeRows, Batch.count, store, report, classesTaken,
    membersTaken, inheritanceTaken, importsTaken, documentationTaken, typesTaken, List.length_map]
  refine ⟨rfl, ?_, ?_⟩
  · simp only [Addition.records]
    omega
  · -- of no table more is added than was offered, so nothing is lost in the differences
    have nodesFit := hnodes.sublist.length_le
    have varsFit := hvars.sublist.length_le
    have functionsFit := hfunctions.sublist.length_le
    have classesFit := hclasses.sublist.length_le
    have membersFit := hmembers.sublist.length_le
    have inheritanceFit := hinheritance.sublist.length_le
    have importsFit := himports.sublist.length_le
    have documentationFit := hdocumentation.sublist.length_le
    have typesFit := htypes.sublist.length_le
    simp only [Graph.allNodes, List.length_append] at nodesFit
    simp only [Addition.records, Graph.counts, GraphCounts.total, Graph.allNodes, List.length_append]
    omega

/-- **A batch is a merge in which the first writer wins, and its counts are exact.** On every store that
calls have made of an empty one, whatever they brought, a batch succeeds. It leaves every row as it is and
puts behind the rows of each table, in the order in which they are offered, those records whose key is not
taken when their turn comes, and with each function that it adds all its variables. What it has written is
the number of rows that have come into the tables, and its conflicts are the nodes, entities and relations
that were offered and have not been added. -/
theorem batches_are_first_writer_merges (calls : List Call) (files : List File) (g : Graph) :
    let s := reached calls
    ∃ a report, FirstWriters s files g a ∧
      (s.persistBatch files g).result = .ok (a.appendedTo s, report) ∧
      report.written + s.rowCount = (a.appendedTo s).rowCount ∧
      report.conflicts + a.records = g.counts.total := by
  intro s
  have regular : s.Regular := regular_reached calls
  obtain ⟨a, first, store, written, conflicts⟩ := writeAll_first regular.owned files g
  refine ⟨a, _, first, store ▸ regular.persistBatch files g, ?_, conflicts⟩
  rw [written, rowCount_eq, rowCount_eq]
  simp only [Addition.appendedTo, Addition.records, List.length_append, List.length_map]
  omega

end SymbolIndex.Store
