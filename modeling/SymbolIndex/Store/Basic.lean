import SymbolIndex.Dictionary
import SymbolIndex.Error
import SymbolIndex.Store.Row
import SymbolIndex.Store.Table

/-!
# `SymbolIndex.Store.Basic` — the store

A store is thirteen tables. A table can be missing; every statement on a missing table is refused,
and opening the store again brings it back empty. A store that can only be read refuses every row.

Build actions are numbered from one. A number is never given out twice, and it is above all numbers
in use; the numbers end with the largest integer of 64 bits. Members and imports are numbered the same
way, but only the order of their numbers shows, which is that of the rows.

## Contents
- `Store`, `Store.empty`, `Store.size`, `Store.require`.
- `Store.nextAction?`: the number of the next build action.
- `Store.room?`: how many numbers members or imports have left.
- `Store.drop`, `Store.reopen`.
-/

namespace SymbolIndex

open Store

structure Store where
  files : List FileRow := []
  actions : List ActionRow := []
  sources : List SourceRow := []
  nodes : List NodeRow := []
  vars : List EntityRow := []
  functions : List EntityRow := []
  functionVariables : List FunctionVariableRow := []
  classes : List EntityRow := []
  members : List MemberRow := []
  inheritance : List InheritanceRow := []
  imports : List ImportRow := []
  documentation : List DocumentationRow := []
  types : List TypeRow := []
  /-- The largest action number that has been given out. -/
  lastAction : Nat := 0
  /-- How many numbers are left to tables in which a number was overwritten. -/
  rooms : List (TableName × Nat) := []
  /-- The tables that are missing; their lists are empty. -/
  missing : List TableName := []
  isReadOnly : Bool := false
  deriving DecidableEq, Inhabited

namespace Store

def empty : Store := {}

def isMissing (s : Store) (t : TableName) : Bool :=
  s.missing.contains t

/-- Refuses to go on if one of the tables is missing. -/
def require (s : Store) (tables : List TableName) : Except Error Unit :=
  if tables.any s.isMissing then .error .storage else .ok ()

/-- The largest integer of 64 bits, and the last number of a row. -/
def lastNumber : Int := 0x7FFFFFFFFFFFFFFF

/-- The number of the next build action, if there is one left. -/
def nextAction? (s : Store) : Option Nat :=
  let top := (s.actions.map ActionRow.id).foldl max (s.lastAction : Int)
  if top < lastNumber then some (top.toNat + 1) else none

/-- How many more rows a table takes, if a number in it was overwritten. -/
def room? (s : Store) (t : TableName) : Option Nat :=
  Pairs.find? t s.rooms

/-- The number of rows of a table. -/
def size (s : Store) : TableName → Nat
  | .files => s.files.length
  | .actions => s.actions.length
  | .sources => s.sources.length
  | .nodes => s.nodes.length
  | .vars => s.vars.length
  | .functions => s.functions.length
  | .functionVariables => s.functionVariables.length
  | .classes => s.classes.length
  | .members => s.members.length
  | .inheritance => s.inheritance.length
  | .imports => s.imports.length
  | .documentation => s.documentation.length
  | .types => s.types.length

/-- The store without the rows of a table. -/
def clear (s : Store) : TableName → Store
  | .files => { s with files := [] }
  | .actions => { s with actions := [], lastAction := 0 }
  | .sources => { s with sources := [] }
  | .nodes => { s with nodes := [] }
  | .vars => { s with vars := [] }
  | .functions => { s with functions := [] }
  | .functionVariables => { s with functionVariables := [] }
  | .classes => { s with classes := [] }
  | .members => { s with members := [] }
  | .inheritance => { s with inheritance := [] }
  | .imports => { s with imports := [] }
  | .documentation => { s with documentation := [] }
  | .types => { s with types := [] }

/-- Takes a table away with its rows. -/
def drop (s : Store) (t : TableName) : Store :=
  { s.clear t with
    missing := t :: s.missing
    rooms := s.rooms.filter fun entry => entry.1 ≠ t }

/-- Opens a store again: missing tables come back empty. -/
def reopen (s : Store) : Store :=
  { s with missing := [] }

end Store

end SymbolIndex
