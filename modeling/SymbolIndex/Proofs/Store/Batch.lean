import SymbolIndex.Proofs.Store.Merge
import SymbolIndex.Store.Recorder

/-!
# `Proofs.Store.Batch` — what a batch leaves in a store

A batch can end early only where a table is missing, the store cannot be written, or a table has run out
of numbers. A store that nobody has tampered with is none of these (`Whole`), so a batch on it always
runs to its end, and every table is afterwards the merge of what it was with what the graph offers.

## Contents
- `Whole`, `Batch.writeAll`: the stages one after another; `runBatch_of_whole`.
- `store_writeAll`: the tables after a batch.
- `commitFile_eq_ok`, `mem_commitFile`, `persistFile_eq_ok`: what committing a file leaves.
-/

namespace SymbolIndex.Store

/-- A store with all its tables, none of them short of numbers, that can be written. -/
structure Whole (s : Store) : Prop where
  missing : s.missing = []
  writable : s.isReadOnly = false
  rooms : s.rooms = []

/-- A new store is whole. -/
theorem whole_empty : Whole empty := ⟨rfl, rfl, rfl⟩

/-- A whole store has every table that is asked for. -/
theorem Whole.require {s : Store} (h : s.Whole) (tables : List TableName) : s.require tables = .ok () := by
  unfold Store.require isMissing
  rw [h.missing, if_neg]
  simp

/-! ## One stage after another -/

namespace Batch

variable {α : Type} {b : Batch}

/-- A table to which an offer is written is merged with it. -/
theorem store_writeRows {ρ : Type} (b : Batch) (t : TableName) (clash : ρ → ρ → Bool)
    (rows offer : List ρ) (put : List ρ → Store) :
    (b.writeRows t clash rows offer put).store = put (merge clash rows offer) := rfl

/-- Each row of an offer is counted once, as written or as a conflict. -/
theorem counted_writeRows {ρ : Type} (b : Batch) (t : TableName) (clash : ρ → ρ → Bool)
    (rows offer : List ρ) (put : List ρ → Store) :
    let b' := b.writeRows t clash rows offer put
    b'.report.written + b'.report.conflicts =
      b.report.written + b.report.conflicts + offer.length := by
  have part := (fresh_sublist clash rows offer).length_le
  simp only [writeRows, count]
  omega

/-- The members that a batch takes, where the numbers suffice. -/
def takeMembers (b : Batch) (members : List ClassMember) : Batch :=
  b.writeRows .members MemberRow.clash b.store.members (members.map MemberRow.ofMember)
    fun rows => { b.store with members := rows }

/-- The imports that a batch takes, where the numbers suffice. -/
def takeImports (b : Batch) (imports : List Import) : Batch :=
  b.writeRows .imports ImportRow.clash b.store.imports (imports.map ImportRow.ofImport)
    fun rows => { b.store with imports := rows }

/-- The stages of a batch, none of which stops. -/
def writeAll (b : Batch) (files : List File) (g : Graph) : Batch :=
  let b := b.writeFiles files
  let b := b.writeNodes g.allNodes
  let b := b.writeVariables g.vars
  let b := b.writeFunctions g.functions
  let b := b.writeClasses g.classes
  let b := b.takeMembers g.members
  let b := b.writeInheritance g.inheritance
  let b := b.takeImports g.imports
  let b := b.writeDocumentation g.documentation
  b.writeTypes g.types

/-- No stage stops where the store is whole, whatever it brings. -/
theorem stage_of_whole (h : b.store.Whole) (tables : List TableName) (records : List α)
    (next : Except (List TableName) Batch) : b.stage tables records next = next := by
  have admitted : b.admits tables records = true := by
    unfold admits isMissing
    rw [h.missing, h.writable]
    simp
  unfold stage
  rw [if_pos admitted]

/-- On a whole store the next stage is given what the stage before it wrote. -/
theorem bind_stage {b' : Batch} {tables : List TableName} {records : List α}
    {next : Batch → Except (List TableName) Batch} (h : b.store.Whole) :
    (b.stage tables records (.ok b') >>= next) = next b' := by
  rw [stage_of_whole h]
  rfl

theorem overrun?_none {ρ : Type} (clash : ρ → ρ → Bool) (rows offer : List ρ) :
    overrun? clash none rows offer = none := rfl

theorem room?_of_whole {s : Store} (h : s.Whole) (t : TableName) : s.room? t = none := by
  unfold Store.room?
  rw [h.rooms]
  rfl

/-- Where no table is short of numbers there is nothing to take them from. -/
theorem useNumbers_of_whole {s : Store} {t : TableName} {n : Nat} (h : s.rooms = []) :
    useNumbers t n s = s := by
  unfold useNumbers
  rw [h]
  exact congrArg (fun rooms => { s with rooms }) h.symm

/-- A whole store is never short of numbers, so its numbered tables are written as the others are. -/
theorem writeNumbered_of_whole {ρ : Type} {put : List ρ → Store} (h : b.store.Whole)
    (unchanged : ∀ rows, (put rows).rooms = b.store.rooms) (t : TableName) (clash : ρ → ρ → Bool)
    (rows offer : List ρ) :
    b.writeNumbered t clash rows offer put = .ok (b.writeRows t clash rows offer put) := by
  have same : (fun all => useNumbers t (all.length - rows.length) (put all)) = put := by
    funext all
    apply useNumbers_of_whole
    rw [unchanged, h.rooms]
  unfold writeNumbered
  rw [room?_of_whole h, overrun?_none]
  dsimp only
  rw [same]

theorem writeMembers_of_whole (h : b.store.Whole) (members : List ClassMember) :
    b.writeMembers members = .ok (b.takeMembers members) := by
  apply writeNumbered_of_whole h
  intro _
  rfl

theorem writeImports_of_whole (h : b.store.Whole) (imports : List Import) :
    b.writeImports imports = .ok (b.takeImports imports) := by
  apply writeNumbered_of_whole h
  intro _
  rfl

/-! ## Functions and their variables -/

/-- The variables of functions that a store takes: those of a function that is taken itself. -/
def takeVariables (rows : List EntityRow) (vars : List FunctionVariableRow) :
    List Function → List FunctionVariableRow
  | [] => vars
  | f :: fs =>
    let row := EntityRow.ofEntity f.entity
    if taken EntityRow.clash rows row then takeVariables rows vars fs
    else takeVariables (rows ++ [row])
      (merge FunctionVariableRow.clash vars (FunctionVariableRow.ofFunction f)) fs

theorem takeVariables_cons (rows : List EntityRow) (vars : List FunctionVariableRow) (f : Function)
    (fs : List Function) : takeVariables rows vars (f :: fs) =
      if taken EntityRow.clash rows (EntityRow.ofEntity f.entity) then takeVariables rows vars fs
      else takeVariables (rows ++ [EntityRow.ofEntity f.entity])
        (merge FunctionVariableRow.clash vars (FunctionVariableRow.ofFunction f)) fs := rfl

/-- **The functions and their variables after a batch.** A function is merged as any row is, but its
variables come with it only if it is taken. -/
theorem store_writeFunctions (b : Batch) (functions : List Function) :
    (b.writeFunctions functions).store = { b.store with
      functions := merge EntityRow.clash b.store.functions
        (functions.map fun f => EntityRow.ofEntity f.entity)
      functionVariables := takeVariables b.store.functions b.store.functionVariables functions } := by
  induction functions generalizing b with
  | nil =>
    rw [List.map_nil, merge_nil]
    rfl
  | cons f fs ih =>
    show ((b.writeFunction f).writeFunctions fs).store = _
    rw [ih, List.map_cons, merge_cons, takeVariables_cons]
    unfold writeFunction
    by_cases there : taken EntityRow.clash b.store.functions (EntityRow.ofEntity f.entity) = true
    · simp only [if_pos there]
      rfl
    · simp only [if_neg there]
      rfl

/-- Every variable of a function that the store has afterwards was there or belongs to one of the
functions. -/
theorem mem_takeVariables {rows : List EntityRow} {vars : List FunctionVariableRow}
    {functions : List Function} {r : FunctionVariableRow} (h : r ∈ takeVariables rows vars functions) :
    r ∈ vars ∨ ∃ f ∈ functions, r ∈ FunctionVariableRow.ofFunction f := by
  induction functions generalizing rows vars with
  | nil => exact Or.inl h
  | cons f fs ih =>
    unfold takeVariables at h
    dsimp only at h
    split at h
    · exact (ih h).imp_right fun ⟨f', hf', hr⟩ => ⟨f', List.mem_cons_of_mem f hf', hr⟩
    · rcases ih h with old | ⟨f', hf', hr⟩
      · exact (mem_merge old).imp_right fun hr => ⟨f, List.mem_cons_self, hr⟩
      · exact Or.inr ⟨f', List.mem_cons_of_mem f hf', hr⟩

/-! ## All stages -/

section Whole

variable (h : b.store.Whole)
include h

/-- Every stage puts rows into tables and does nothing else to the store, so each leaves it whole. -/
theorem whole_writeFiles (files : List File) : (b.writeFiles files).store.Whole :=
  ⟨h.missing, h.writable, h.rooms⟩

theorem whole_writeNodes (nodes : List Node) : (b.writeNodes nodes).store.Whole :=
  ⟨h.missing, h.writable, h.rooms⟩

theorem whole_writeVariables (vars : List Variable) : (b.writeVariables vars).store.Whole :=
  ⟨h.missing, h.writable, h.rooms⟩

theorem whole_writeFunctions (functions : List Function) :
    (b.writeFunctions functions).store.Whole := by
  rw [store_writeFunctions]
  exact ⟨h.missing, h.writable, h.rooms⟩

theorem whole_writeClasses (classes : List Class) : (b.writeClasses classes).store.Whole :=
  ⟨h.missing, h.writable, h.rooms⟩

theorem whole_takeMembers (members : List ClassMember) : (b.takeMembers members).store.Whole :=
  ⟨h.missing, h.writable, h.rooms⟩

theorem whole_writeInheritance (edges : List Inheritance) :
    (b.writeInheritance edges).store.Whole :=
  ⟨h.missing, h.writable, h.rooms⟩

theorem whole_takeImports (imports : List Import) : (b.takeImports imports).store.Whole :=
  ⟨h.missing, h.writable, h.rooms⟩

theorem whole_writeDocumentation (documentation : List Documentation) :
    (b.writeDocumentation documentation).store.Whole :=
  ⟨h.missing, h.writable, h.rooms⟩

end Whole

/-- **The tables after a batch**: each is merged with what the graph offers. -/
theorem store_writeAll (b : Batch) (files : List File) (g : Graph) :
    (b.writeAll files g).store = { b.store with
      files := merge FileRow.clash b.store.files (files.map FileRow.ofFile)
      nodes := merge NodeRow.clash b.store.nodes (g.allNodes.map NodeRow.ofNode)
      vars := merge EntityRow.clash b.store.vars (g.vars.map fun v => EntityRow.ofEntity v.entity)
      functions := merge EntityRow.clash b.store.functions
        (g.functions.map fun f => EntityRow.ofEntity f.entity)
      functionVariables := takeVariables b.store.functions b.store.functionVariables g.functions
      classes := merge EntityRow.clash b.store.classes
        (g.classes.map fun c => EntityRow.ofEntity c.entity)
      members := merge MemberRow.clash b.store.members (g.members.map MemberRow.ofMember)
      inheritance := merge InheritanceRow.clash b.store.inheritance
        (g.inheritance.map InheritanceRow.ofInheritance)
      imports := merge ImportRow.clash b.store.imports (g.imports.map ImportRow.ofImport)
      documentation := merge DocumentationRow.clash b.store.documentation
        (g.documentation.map DocumentationRow.ofDocumentation)
      types := merge TypeRow.clash b.store.types (g.types.map TypeRow.ofType) } := by
  simp only [writeAll, writeTypes, writeDocumentation, takeImports, writeInheritance, takeMembers,
    writeClasses, store_writeRows, store_writeFunctions, writeVariables, writeNodes, writeFiles, merge]

end Batch

open Batch

/-- **A batch on a whole store runs to its end.** -/
theorem runBatch_of_whole {s : Store} (h : s.Whole) (files : List File) (g : Graph) :
    s.runBatch files g = .ok (Batch.writeAll { store := s } files g) := by
  -- every stage finds the store whole and leaves it whole to the next
  have files := whole_writeFiles (b := { store := s }) h files
  have nodes := whole_writeNodes files g.allNodes
  have vars := whole_writeVariables nodes g.vars
  have functions := whole_writeFunctions vars g.functions
  have classes := whole_writeClasses functions g.classes
  have members := whole_takeMembers classes g.members
  have inheritance := whole_writeInheritance members g.inheritance
  have imports := whole_takeImports inheritance g.imports
  have documentation := whole_writeDocumentation imports g.documentation
  unfold runBatch
  rw [bind_stage h, bind_stage files, bind_stage nodes, bind_stage vars, bind_stage functions,
    writeMembers_of_whole classes, bind_stage classes, bind_stage members,
    writeImports_of_whole inheritance, bind_stage inheritance, bind_stage imports,
    stage_of_whole documentation]
  rfl

/-! ## One file -/

/-- After a file is committed every file that was there still is, the committed one is, and no other has
come. -/
theorem commitFile_eq_ok {rows rows' : List FileRow} {f : File} (ok : commitFile rows f = .ok rows') :
    (∀ r ∈ rows, ∃ r' ∈ rows', r'.id = r.id) ∧ (∃ r ∈ rows', r.id = f.id) ∧
      ∀ r' ∈ rows', (∃ r ∈ rows, r'.id = r.id ∧ r'.path = r.path) ∨ r' = FileRow.ofFile f := by
  unfold commitFile at ok
  split at ok
  · rename_i there
    cases ok
    -- only the status of the row changes
    have moved : ∀ r : FileRow,
        (if r.id = f.id then { r with status := Vocabulary.word f.status } else r).id = r.id ∧
        (if r.id = f.id then { r with status := Vocabulary.word f.status } else r).path = r.path := by
      intro r
      split <;> exact ⟨rfl, rfl⟩
    refine ⟨?_, ?_, ?_⟩
    · intro r hr
      exact ⟨_, List.mem_map.mpr ⟨r, hr, rfl⟩, (moved r).1⟩
    · obtain ⟨r, hr, same⟩ := List.any_eq_true.mp there
      exact ⟨_, List.mem_map.mpr ⟨r, hr, rfl⟩, (moved r).1.trans (of_decide_eq_true same)⟩
    · intro r' hr'
      obtain ⟨r, hr, rfl⟩ := List.mem_map.mp hr'
      exact Or.inl ⟨r, hr, moved r⟩
  · split at ok
    · cases ok
    · cases ok
      refine ⟨fun r hr => ⟨r, List.mem_append_left _ hr, rfl⟩,
        ⟨FileRow.ofFile f, List.mem_append_right _ (List.mem_singleton.mpr rfl), rfl⟩, ?_⟩
      intro r' hr'
      rcases List.mem_append.mp hr' with old | new
      · exact Or.inl ⟨r', old, rfl, rfl⟩
      · exact Or.inr (List.mem_singleton.mp new)

/-- If its identifier is only in rows of its path, a committed file replaces them. -/
theorem mem_commitFile {rows rows' : List FileRow} {f : File} {r : FileRow}
    (ok : commitFile rows f = .ok rows') (samePath : ∀ r ∈ rows, r.id = f.id → r.path = f.path) :
    r ∈ rows' ↔ r = FileRow.ofFile f ∨ r ∈ rows ∧ r.id ≠ f.id := by
  unfold commitFile at ok
  split at ok
  · rename_i there
    cases ok
    have moved : ∀ r ∈ rows, r.id = f.id →
        { r with status := Vocabulary.word f.status } = FileRow.ofFile f := by
      intro r hr same
      rw [same, samePath r hr same]
      rfl
    rw [List.mem_map]
    constructor
    · rintro ⟨old, hold, rfl⟩
      split
      · rename_i same
        exact Or.inl (moved old hold same)
      · rename_i other
        exact Or.inr ⟨hold, other⟩
    · rintro (rfl | ⟨hr, other⟩)
      · obtain ⟨old, hold, same⟩ := List.any_eq_true.mp there
        have same := of_decide_eq_true same
        exact ⟨old, hold, by rw [if_pos same, moved old hold same]⟩
      · exact ⟨r, hr, if_neg other⟩
  · rename_i free
    split at ok
    · cases ok
    · cases ok
      have other : ∀ r ∈ rows, r.id ≠ f.id := fun r hr same =>
        free (List.any_eq_true.mpr ⟨r, hr, decide_eq_true same⟩)
      rw [List.mem_append, List.mem_singleton]
      constructor
      · rintro (old | new)
        · exact Or.inr ⟨old, other r old⟩
        · exact Or.inl new
      · rintro (new | ⟨old, _⟩)
        · exact Or.inr new
        · exact Or.inl old

/-- Committing a file never gives two rows one path. -/
theorem nodup_path_commitFile {rows rows' : List FileRow} {f : File}
    (ok : commitFile rows f = .ok rows') (distinct : (rows.map FileRow.path).Nodup) :
    (rows'.map FileRow.path).Nodup := by
  unfold commitFile at ok
  split at ok
  · cases ok
    rw [List.map_map]
    refine (congrArg List.Nodup (List.map_congr_left fun r _ => ?_)).mpr distinct
    show FileRow.path (if r.id = f.id then _ else r) = r.path
    split <;> rfl
  · split at ok
    · cases ok
    · rename_i free
      cases ok
      refine nodup_keys_append distinct (List.nodup_singleton _) ?_
      intro row hrow r hr same
      rw [List.mem_singleton.mp hrow] at same
      exact free (List.any_eq_true.mpr ⟨r, hr, decide_eq_true same⟩)

/-- A file is committed to a store that takes it; only files and build actions change. -/
theorem persistFile_eq_ok {s s' : Store} {f : File} {action : BuildAction}
    (h : s.persistFile f action = .ok s') : ∃ files actions sources lastAction,
      commitFile s.files f = .ok files ∧ s' = { s with files, actions, sources, lastAction } := by
  unfold persistFile at h
  cases required : s.require [.files, .actions, .sources] with
  | error err => rw [required] at h; cases h
  | ok u =>
    rw [required] at h
    simp only [bind, Except.bind] at h
    split at h
    · cases h
    · cases committed : commitFile s.files f with
      | error err => rw [committed] at h; cases h
      | ok files =>
        rw [committed] at h
        dsimp only at h
        split at h
        · cases h
        · split at h
          · cases h
          · cases h
            exact ⟨files, _, _, _, rfl, rfl⟩

/-- A store that is whole stays so when a file is committed. -/
theorem Whole.persistFile {s s' : Store} {f : File} {action : BuildAction} (h : s.Whole)
    (ok : s.persistFile f action = .ok s') : s'.Whole := by
  obtain ⟨_, _, _, _, _, rfl⟩ := persistFile_eq_ok ok
  exact ⟨h.missing, h.writable, h.rooms⟩

end SymbolIndex.Store
