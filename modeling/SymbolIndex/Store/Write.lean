import SymbolIndex.Graph
import SymbolIndex.Store.Basic

/-!
# `SymbolIndex.Store.Write` — the two ways into a store

`persistFile` commits one file with its build action and the pair that links them. `persistBatch`
writes a whole graph: the first writer of a key wins, later records with that key are counted as
conflicts and left out. Either is all or nothing.

## Contents
- `commitFile`, `persistFile`.
- `Batch`, the state of a batch while it is written; `writeRows` and `writeNumbered`, the two ways to
  write to a table; `persistBatch`, the stages in order.
-/

namespace SymbolIndex

open Store

/-- What a batch added and what it left out. -/
structure BatchReport where
  written : Nat := 0
  conflicts : Nat := 0
  deriving DecidableEq, Repr, Inhabited

namespace Store

/-! ## One file -/

/-- The file rows after a file is committed: a known identifier takes the new status and keeps its
path, a path of another identifier is refused. -/
def commitFile (rows : List FileRow) (f : File) : Except Error (List FileRow) :=
  if rows.any fun r => r.id = f.id then
    .ok (rows.map fun r => if r.id = f.id then { r with status := Vocabulary.word f.status } else r)
  else if rows.any fun r => r.path = f.path then .error .storage
  else .ok (rows ++ [FileRow.ofFile f])

/-- Commits a file, a new build action, and the pair that links them. -/
def persistFile (s : Store) (f : File) (action : BuildAction) : Except Error Store := do
  s.require [.files, .actions, .sources]
  if s.isReadOnly then .error .storage
  else do
    let files ← commitFile s.files f
    match s.nextAction? with
    | none => .error .storage
    | some number =>
      let pair : SourceRow := ⟨.ofId f.id, .integer number⟩
      if s.sources.contains pair then .error .storage
      else .ok { s with
        files
        actions := s.actions ++ [⟨number, action.command⟩]
        sources := s.sources ++ [pair]
        lastAction := number }

/-! ## One batch -/

/-- A batch while it is written: the store so far, its counts, and the tables of the records left
out, in order. -/
structure Batch where
  store : Store
  report : BatchReport := {}
  conflicts : List TableName := []

namespace Batch

/-- Counts what a table took of an offer. -/
def count (b : Batch) (table : TableName) (offered added : Nat) (store : Store) : Batch where
  store := store
  report := ⟨b.report.written + added, b.report.conflicts + (offered - added)⟩
  conflicts := b.conflicts ++ List.replicate (offered - added) table

/-- Writes to a table the rows of an offer whose keys are not taken, and counts the others as conflicts.
How the store holds the table is up to `put`. -/
def writeRows {ρ : Type} (b : Batch) (t : TableName) (clash : ρ → ρ → Bool) (rows offer : List ρ)
    (put : List ρ → Store) : Batch :=
  let new := fresh clash rows offer
  b.count t offer.length new.length (put (rows ++ new))

/-- Files known to the store are left as they are and counted nowhere. -/
def writeFiles (b : Batch) (files : List File) : Batch :=
  let rows := fresh FileRow.clash b.store.files (files.map FileRow.ofFile)
  { b with
    store := { b.store with files := b.store.files ++ rows }
    report := { b.report with written := b.report.written + rows.length } }

def writeNodes (b : Batch) (nodes : List Node) : Batch :=
  b.writeRows .nodes NodeRow.clash b.store.nodes (nodes.map NodeRow.ofNode)
    fun rows => { b.store with nodes := rows }

def writeVariables (b : Batch) (vars : List Variable) : Batch :=
  b.writeRows .vars EntityRow.clash b.store.vars (vars.map fun v => EntityRow.ofEntity v.entity)
    fun rows => { b.store with vars := rows }

/-- The variables of a function are written only with the function itself. -/
def writeFunction (b : Batch) (f : Function) : Batch :=
  let row := EntityRow.ofEntity f.entity
  if taken EntityRow.clash b.store.functions row then b.count .functions 1 0 b.store
  else
    let b := b.count .functions 1 1 { b.store with functions := b.store.functions ++ [row] }
    b.writeRows .functionVariables FunctionVariableRow.clash b.store.functionVariables
      (FunctionVariableRow.ofFunction f) fun rows => { b.store with functionVariables := rows }

def writeFunctions (b : Batch) (functions : List Function) : Batch :=
  functions.foldl writeFunction b

def writeClasses (b : Batch) (classes : List Class) : Batch :=
  b.writeRows .classes EntityRow.clash b.store.classes
    (classes.map fun c => EntityRow.ofEntity c.entity) fun rows => { b.store with classes := rows }

/-- Where an offer has to stop because a table has no numbers left: how many of it were left out until
then. -/
def overrun? {ρ : Type} (clash : ρ → ρ → Bool) (room : Option Nat) (rows offer : List ρ) :
    Option Nat := do
  let room ← room
  let place ← (List.range offer.length).find? fun n =>
    decide ((fresh clash rows (offer.take n)).length = room)
  some (place - room)

/-- Takes the numbers of new rows from what is left to a table. -/
def useNumbers (t : TableName) (used : Nat) (s : Store) : Store :=
  { s with rooms := s.rooms.map fun (u, n) => if u = t then (u, n - used) else (u, n) }

/-- Writes to a table whose rows are numbered: as `writeRows`, but each new row takes a number. A table
without numbers ends the batch. -/
def writeNumbered {ρ : Type} (b : Batch) (t : TableName) (clash : ρ → ρ → Bool)
    (rows offer : List ρ) (put : List ρ → Store) : Except (List TableName) Batch :=
  match overrun? clash (b.store.room? t) rows offer with
  | some skipped => .error (b.conflicts ++ List.replicate skipped t)
  | none =>
    .ok (b.writeRows t clash rows offer fun all =>
      useNumbers t (all.length - rows.length) (put all))

def writeMembers (b : Batch) (members : List ClassMember) : Except (List TableName) Batch :=
  b.writeNumbered .members MemberRow.clash b.store.members (members.map MemberRow.ofMember)
    fun rows => { b.store with members := rows }

def writeInheritance (b : Batch) (edges : List Inheritance) : Batch :=
  b.writeRows .inheritance InheritanceRow.clash b.store.inheritance
    (edges.map InheritanceRow.ofInheritance) fun rows => { b.store with inheritance := rows }

def writeImports (b : Batch) (imports : List Import) : Except (List TableName) Batch :=
  b.writeNumbered .imports ImportRow.clash b.store.imports (imports.map ImportRow.ofImport)
    fun rows => { b.store with imports := rows }

def writeDocumentation (b : Batch) (documentation : List Documentation) : Batch :=
  b.writeRows .documentation DocumentationRow.clash b.store.documentation
    (documentation.map DocumentationRow.ofDocumentation)
    fun rows => { b.store with documentation := rows }

def writeTypes (b : Batch) (types : List TypeAssociation) : Batch :=
  b.writeRows .types TypeRow.clash b.store.types (types.map TypeRow.ofType)
    fun rows => { b.store with types := rows }

/-- Whether the store lets a batch go on to some records: their tables are there, and it takes rows if
there are any. -/
def admits {α : Type} (b : Batch) (tables : List TableName) (records : List α) : Bool :=
  !tables.any b.store.isMissing && (!b.store.isReadOnly || records.isEmpty)

/-- Runs one stage. Where the store does not let it go on the batch ends; what is left of it is the
list of conflicts. -/
def stage {α : Type} (b : Batch) (tables : List TableName) (records : List α)
    (next : Except (List TableName) Batch) : Except (List TableName) Batch :=
  if b.admits tables records then next else .error b.conflicts

end Batch

/-- A table that is needed only if there is something to write. -/
def neededFor {α : Type} (table : TableName) (records : List α) : List TableName :=
  if records.isEmpty then [] else [table]

/-- The stages of a batch in the order of dependency: files, nodes, entities, relations. -/
def runBatch (s : Store) (files : List File) (g : Graph) : Except (List TableName) Batch := do
  let b : Batch := { store := s }
  let b ← b.stage [.files] files (.ok (b.writeFiles files))
  let b ← b.stage [.nodes] g.allNodes (.ok (b.writeNodes g.allNodes))
  let b ← b.stage (neededFor .vars g.vars) g.vars (.ok (b.writeVariables g.vars))
  let b ← b.stage (.functionVariables :: neededFor .functions g.functions) g.functions
    (.ok (b.writeFunctions g.functions))
  let b ← b.stage (neededFor .classes g.classes) g.classes (.ok (b.writeClasses g.classes))
  let b ← b.stage [.members] g.members (b.writeMembers g.members)
  let b ← b.stage [.inheritance] g.inheritance (.ok (b.writeInheritance g.inheritance))
  let b ← b.stage [.imports] g.imports (b.writeImports g.imports)
  let b ← b.stage [.documentation] g.documentation
    (.ok (b.writeDocumentation g.documentation))
  b.stage [.types] g.types (.ok (b.writeTypes g.types))

/-- What came of a batch: the tables of the records that were left out, in order, and the store
with the counts, or the error of a batch of which nothing was kept. -/
structure BatchOutcome (σ : Type) where
  conflicts : List TableName
  result : Except Error (σ × BatchReport)

/-- Writes every record of a graph, and the files that it needs. -/
def persistBatch (s : Store) (files : List File) (g : Graph) : BatchOutcome Store :=
  match s.runBatch files g with
  | .ok b => ⟨b.conflicts, .ok (b.store, b.report)⟩
  | .error conflicts => ⟨conflicts, .error .storage⟩

end Store

end SymbolIndex
