import SymbolIndex.Dictionary
import SymbolIndex.Json.Reader
import SymbolIndex.Store.Inspect

/-!
# `SymbolIndex.Store.Saved` — a store as the bytes of a file

A store is saved as a byte that no text starts with and one JSON object: a mark, the largest action
number, and the rows of every table in the order in which they were written. Tables that are missing
are saved like empty ones, as opening a store brings them back.

## Contents
- `Cell.toJson`, `Cell.ofJson?`: cells as JSON.
- `Store.toJson`, `Store.ofJson?`: stores as JSON.
- `Store.encode`, `Store.decode?`: stores as bytes.
-/

namespace SymbolIndex.Store

open Json (Value)

namespace Cell

/-- What a column of integers holds, as JSON: a number that is no integer stands in brackets. -/
def datumToJson : Datum → Value
  | .integer n => .integer n
  | .real floor => .array [.integer floor]
  | .text s => .string s

def toJson : Cell → Value
  | null => .null
  | id d => datumToJson d
  | number d => datumToJson d
  | text s => .string s

def ofJson? : Value → Option Cell
  | .null => some .null
  | .integer n => some (.number (.integer n))
  | .array [.integer floor] => some (.number (.real floor))
  | .string s => some (.text s)
  | _ => none

end Cell

/-- The rows of a table. -/
def rowsToJson {ρ : Type} [Row ρ] (rows : List ρ) : Value :=
  .array (rows.map fun r => .array ((Row.cells r).map Cell.toJson))

def rowsOfJson? {ρ : Type} [Row ρ] : Value → Option (List ρ)
  | .array rows => rows.mapM fun
    | .array cells => do Row.ofCells? (← cells.mapM Cell.ofJson?)
    | _ => none
  | _ => none

/-- The key and the value that mark a saved store. -/
def mark : String × Nat := ("xref store", 1)

def lastActionKey : String := "last action"

def toJson (s : Store) : Value :=
  let table {ρ : Type} [Row ρ] (t : TableName) (rows : List ρ) := (Vocabulary.word t, rowsToJson rows)
  .object [
    (mark.1, .integer mark.2),
    (lastActionKey, .integer s.lastAction),
    table .files s.files,
    table .actions s.actions,
    table .sources s.sources,
    table .nodes s.nodes,
    table .vars s.vars,
    table .functions s.functions,
    table .functionVariables s.functionVariables,
    table .classes s.classes,
    table .members s.members,
    table .inheritance s.inheritance,
    table .imports s.imports,
    table .documentation s.documentation,
    table .types s.types]

def ofJson? : Value → Option Store
  | .object members => do
    let table {ρ : Type} [Row ρ] (t : TableName) : Option (List ρ) := do
      rowsOfJson? (← Pairs.find? (Vocabulary.word t) members)
    let .integer version ← Pairs.find? mark.1 members | none
    let .integer lastAction ← Pairs.find? lastActionKey members | none
    if version ≠ mark.2 then none
    else some {
      files := ← table .files
      actions := ← table .actions
      sources := ← table .sources
      nodes := ← table .nodes
      vars := ← table .vars
      functions := ← table .functions
      functionVariables := ← table .functionVariables
      classes := ← table .classes
      members := ← table .members
      inheritance := ← table .inheritance
      imports := ← table .imports
      documentation := ← table .documentation
      types := ← table .types
      lastAction := lastAction.toNat }
  | _ => none

/-- The first byte of a saved store. It is part of no text in UTF-8. -/
def leadByte : UInt8 := 0xFF

def encode (s : Store) : List UInt8 :=
  leadByte :: s.toJson.toText.toUTF8.toList

/-- The store that bytes hold. An empty file is an empty store, and a single byte counts as none. -/
def decode? : List UInt8 → Option Store
  | [] => some empty
  | [_] => some empty
  | first :: bytes =>
    if first = leadByte then do
      let text ← String.fromUTF8? ⟨bytes.toArray⟩
      let value ← (Json.whole (Json.value Json.strict Json.maxDepth) text.toList).toOption
      ofJson? value
    else none

end SymbolIndex.Store
