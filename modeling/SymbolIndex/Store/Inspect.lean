import SymbolIndex.Store.Basic

/-!
# `SymbolIndex.Store.Inspect` — tables as rows of cells

Every table can be seen as named columns of cells, and a column can be overwritten in every row. A
column of words keeps a number as its digits; a column of integers keeps what is no integer; the key
of a table is an integer or the change is refused. Rows are listed by primary key; tables whose key is
a counter that does not show are listed as written.

## Contents
- `Cell` and its order, `Row`: the columns of a row type.
- `Store.dump`: the rows of a table; `Store.setColumn`: one column overwritten.
-/

namespace SymbolIndex.Store

inductive Cell where
  | null
  /-- What a column of identifiers holds. -/
  | id (d : Datum)
  /-- What a column of numbers holds. -/
  | number (d : Datum)
  | text (s : String)
  deriving DecidableEq, Repr, Inhabited

namespace Cell

/-- What a column of integers holds after a cell is put there. Nothing can be put there as null. -/
def toDatum? : Cell → Option Datum
  | null => none
  | id d => some d
  | number d => some d
  | text s => some (Datum.ofText s)

/-- The key that a cell makes: an integer. -/
def toKey? (c : Cell) : Option Int :=
  c.toDatum?.bind Datum.integer?

def toId? {subject : Subject} (c : Cell) : Option (Id subject) :=
  c.toKey?.map Id.ofSigned

/-- What a column of integers that can be empty holds after a cell is put there. -/
def toOptionalDatum? : Cell → Option (Option Datum)
  | null => some none
  | c => c.toDatum?.map some

/-- The text that a column of words holds after a cell is put there. -/
def toText? : Cell → Option String
  | null => none
  | text s => some s
  | c => c.toKey?.map fun n => toString n

/-- The cell of an identifier that may be absent. -/
def ofOptional : Option Datum → Cell
  | none => null
  | some d => id d

/-- Numbers in their order, then texts in theirs. -/
def compare : Cell → Cell → Ordering
  | text s, text t => Ord.compare s t
  | a, b => (a.toDatum?.getD default).compare (b.toDatum?.getD default)

end Cell

/-- A row as a list of cells, one for each column. -/
class Row (ρ : Type) where
  columns : List String
  /-- How many leading columns make the primary key; none if the key is a counter. -/
  keyWidth : Nat
  cells : ρ → List Cell
  ofCells? : List Cell → Option ρ
  /-- Which rows cannot stand beside each other. -/
  clash : ρ → ρ → Bool

instance : Row FileRow where
  columns := ["id", "path", "parse_status"]
  keyWidth := 1
  clash := FileRow.clash
  cells r := [.id (.ofId r.id), .text r.path, .text r.status]
  ofCells?
    | [id, path, status] => return ⟨← id.toId?, ← path.toText?, ← status.toText?⟩
    | _ => none

instance : Row ActionRow where
  columns := ["id", "command"]
  keyWidth := 1
  clash := ActionRow.clash
  cells r := [.number (.integer r.id), .text r.command]
  ofCells?
    | [id, command] => return ⟨← id.toKey?, ← command.toText?⟩
    | _ => none

instance : Row SourceRow where
  columns := ["file_id", "action_id"]
  keyWidth := 2
  clash := SourceRow.clash
  cells r := [.id r.file, .number r.action]
  ofCells?
    | [file, action] => return ⟨← file.toDatum?, ← action.toDatum?⟩
    | _ => none

instance : Row NodeRow where
  columns := ["id", "qualified_name", "symbol_type", "ast_type", "file_id", "start_line",
    "start_column", "end_line", "end_column"]
  keyWidth := 1
  clash := NodeRow.clash
  cells r := [.id (.ofId r.id), .text r.qualifiedName, .text r.symbol, .text r.type, .id r.file,
    .number r.startLine, .number r.startColumn, .number r.stopLine, .number r.stopColumn]
  ofCells?
    | [id, name, symbol, type, file, startLine, startColumn, stopLine, stopColumn] =>
      return ⟨← id.toId?, ← name.toText?, ← symbol.toText?, ← type.toText?, ← file.toDatum?,
        ← startLine.toDatum?, ← startColumn.toDatum?, ← stopLine.toDatum?,
        ← stopColumn.toDatum?⟩
    | _ => none

instance : Row EntityRow where
  columns := ["id", "ast_node_id", "name", "qualified_name", "visibility"]
  keyWidth := 1
  clash := EntityRow.clash
  cells r := [.id (.ofId r.id), .id r.node, .text r.name, .text r.qualifiedName,
    .text r.visibility]
  ofCells?
    | [id, node, name, qualifiedName, visibility] =>
      return ⟨← id.toId?, ← node.toDatum?, ← name.toText?, ← qualifiedName.toText?,
        ← visibility.toText?⟩
    | _ => none

instance : Row FunctionVariableRow where
  columns := ["function_id", "role", "position", "variable_id"]
  keyWidth := 3
  clash := FunctionVariableRow.clash
  cells r := [.id r.functionId, .text r.role, .number r.position, .id r.variableId]
  ofCells?
    | [function, role, position, variableId] =>
      return ⟨← function.toDatum?, ← role.toText?, ← position.toDatum?, ← variableId.toDatum?⟩
    | _ => none

instance : Row MemberRow where
  columns := ["class_id", "member_id", "ast_node_id", "kind", "static_member"]
  keyWidth := 0
  clash := MemberRow.clash
  cells r := [.id r.owner, .id r.member, .id r.node, .text r.kind, .number r.isStatic]
  ofCells?
    | [owner, member, node, kind, isStatic] =>
      return ⟨← owner.toDatum?, ← member.toDatum?, ← node.toDatum?, ← kind.toText?,
        ← isStatic.toDatum?⟩
    | _ => none

instance : Row InheritanceRow where
  columns := ["derived", "base"]
  keyWidth := 2
  clash := InheritanceRow.clash
  cells r := [.id r.derived, .id r.base]
  ofCells?
    | [derived, base] => return ⟨← derived.toDatum?, ← base.toDatum?⟩
    | _ => none

instance : Row ImportRow where
  columns := ["ast_node_id", "importer", "imported", "imported_symbol"]
  keyWidth := 0
  clash := ImportRow.clash
  cells r := [.id r.node, .id r.importer, .id r.imported, .ofOptional r.symbol]
  ofCells?
    | [node, importer, imported, symbol] =>
      return ⟨← node.toDatum?, ← importer.toDatum?, ← imported.toDatum?,
        ← symbol.toOptionalDatum?⟩
    | _ => none

instance : Row DocumentationRow where
  columns := ["documented", "kind", "text"]
  keyWidth := 2
  clash := DocumentationRow.clash
  cells r := [.id r.documented, .text r.kind, .text r.text]
  ofCells?
    | [documented, kind, text] =>
      return ⟨← documented.toDatum?, ← kind.toText?, ← text.toText?⟩
    | _ => none

instance : Row TypeRow where
  columns := ["symbol", "type_id"]
  keyWidth := 2
  clash := TypeRow.clash
  cells r := [.id r.symbol, .id r.type]
  ofCells?
    | [symbol, type] => return ⟨← symbol.toDatum?, ← type.toDatum?⟩
    | _ => none

/-- Cells in the order of the first pair that differs. -/
def compareCells : List Cell → List Cell → Ordering
  | a :: as, b :: bs => (a.compare b).then (compareCells as bs)
  | _, _ => .eq

/-- The rows of one table by primary key. -/
def listing {ρ : Type} [Row ρ] (rows : List ρ) : List (List Cell) :=
  let key (cells : List Cell) := cells.take (Row.keyWidth ρ)
  (rows.map Row.cells).mergeSort fun a b => (compareCells (key a) (key b)).isLE

/-- The rows of a table, listed by primary key. -/
def dump (s : Store) (t : TableName) : Except Error (List (List Cell)) := do
  s.require [t]
  .ok <| match t with
    | .files => listing s.files
    | .actions => listing s.actions
    | .sources => listing s.sources
    | .nodes => listing s.nodes
    | .vars => listing s.vars
    | .functions => listing s.functions
    | .functionVariables => listing s.functionVariables
    | .classes => listing s.classes
    | .members => listing s.members
    | .inheritance => listing s.inheritance
    | .imports => listing s.imports
    | .documentation => listing s.documentation
    | .types => listing s.types

/-- Whether no row clashes with a later one. -/
def compatible {ρ : Type} (clash : ρ → ρ → Bool) : List ρ → Bool
  | [] => true
  | r :: rs => !taken clash rs r && compatible clash rs

/-- The rows of one table with a column overwritten. Refused are a column that does not exist, a
cell that the column cannot hold, and rows that would clash. -/
def overwrite {ρ : Type} [Row ρ] (column : String) (cell : Cell) (rows : List ρ) :
    Except Error (List ρ) :=
  if (Row.columns ρ).contains column then
    let place := (Row.columns ρ).idxOf column
    match rows.mapM fun r => Row.ofCells? ((Row.cells r).set place cell) with
    | some rows => if compatible Row.clash rows then .ok rows else .error .storage
    | none => .error .storage
  else .error .storage

/-- The column of the numbers that a counter gives to members and imports. -/
def numberColumn : String := "id"

/-- Overwrites the number of the only row of a table; two rows cannot have one number. The counter
goes on above it. -/
def renumber (s : Store) (t : TableName) (cell : Cell) : Except Error Store :=
  match s.size t, cell.toKey? with
  | 0, _ => .ok s
  | 1, some n => .ok { s with rooms := Pairs.put t (lastNumber - n).toNat s.rooms }
  | _, _ => .error .storage

/-- Overwrites a column in every row of a table. -/
def setColumn (s : Store) (t : TableName) (column : String) (cell : Cell) : Except Error Store := do
  s.require [t]
  match t with
  | .files => return { s with files := ← overwrite column cell s.files }
  | .actions => return { s with actions := ← overwrite column cell s.actions }
  | .sources => return { s with sources := ← overwrite column cell s.sources }
  | .nodes => return { s with nodes := ← overwrite column cell s.nodes }
  | .vars => return { s with vars := ← overwrite column cell s.vars }
  | .functions => return { s with functions := ← overwrite column cell s.functions }
  | .functionVariables =>
    return { s with functionVariables := ← overwrite column cell s.functionVariables }
  | .classes => return { s with classes := ← overwrite column cell s.classes }
  | .members =>
    if column = numberColumn then s.renumber .members cell
    else return { s with members := ← overwrite column cell s.members }
  | .inheritance => return { s with inheritance := ← overwrite column cell s.inheritance }
  | .imports =>
    if column = numberColumn then s.renumber .imports cell
    else return { s with imports := ← overwrite column cell s.imports }
  | .documentation => return { s with documentation := ← overwrite column cell s.documentation }
  | .types => return { s with types := ← overwrite column cell s.types }

end SymbolIndex.Store
