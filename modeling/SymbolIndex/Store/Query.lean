import SymbolIndex.Store.Basic

/-!
# `SymbolIndex.Store.Query` — reading a store back

A row whose words or other values no record has is left out of a list, and refused where one record is
asked for. Lists are in a fixed order: nodes by type, start line, start column and identifier,
edges and types by signed identifiers, everything else as written.
-/

namespace SymbolIndex.Store

/-- Identifiers as a signed column orders them. -/
def compareIds {subject : Subject} (a b : Id subject) : Ordering :=
  compare a.signed b.signed

/-- The file stored under a path. -/
def getFile (s : Store) (path : String) : Except Error (Option File) := do
  s.require [.files]
  match s.files.find? fun r => r.path = path with
  | none => .ok none
  | some r =>
    match r.toFile? with
    | some f => .ok (some f)
    | none => .error .storage

/-- How many build actions are recorded for a file. -/
def countSources (s : Store) (file : FileId) : Except Error Nat := do
  s.require [.sources]
  .ok (s.sources.countP fun r => r.file = .ofId file)

/-- Rows by type, start line, start column and identifier. -/
def NodeRow.compare (a b : NodeRow) : Ordering :=
  (((Ord.compare a.type b.type).then (a.startLine.compare b.startLine)).then
    (a.startColumn.compare b.startColumn)).then (compareIds a.id b.id)

/-- The nodes of a qualified name, declarations first. -/
def findNodes (s : Store) (name : String) : Except Error (List Node) := do
  s.require [.nodes]
  let rows := s.nodes.filter fun r => r.qualifiedName = name
  .ok ((rows.mergeSort fun a b => (a.compare b).isLE).filterMap NodeRow.toNode?)

/-- The rows of a kind of entity. -/
def entities (s : Store) : EntityKind → List EntityRow
  | .variable => s.vars
  | .function => s.functions
  | .classType => s.classes

/-- The table of a kind of entity. -/
def entityTable : EntityKind → TableName
  | .variable => .vars
  | .function => .functions
  | .classType => .classes

def entityExists (s : Store) (kind : EntityKind) (id : EntityId) : Except Error Bool := do
  s.require [entityTable kind]
  .ok ((s.entities kind).any fun r => r.id = id)

/-- The variables that a function has in a role, in order. -/
def variablesOf (s : Store) (function : EntityId) (role : String) :
    Except Error (List EntityId) := do
  s.require [.functionVariables]
  let rows := s.functionVariables.filter fun r => r.functionId = .ofId function ∧ r.role = role
  .ok ((rows.mergeSort fun a b => (a.position.compare b.position).isLE).filterMap fun r =>
    r.variableId.id?)

def inheritanceEdges (s : Store) : Except Error (List Inheritance) := do
  s.require [.inheritance]
  .ok ((s.inheritance.filterMap InheritanceRow.toInheritance?).mergeSort fun a b =>
    ((compareIds a.derived b.derived).then (compareIds a.base b.base)).isLE)

def membersOf (s : Store) (owner : EntityId) : Except Error (List ClassMember) := do
  s.require [.members]
  .ok ((s.members.filter fun r => r.owner = .ofId owner).filterMap MemberRow.toMember?)

def importsOf (s : Store) (importer : FileId) : Except Error (List Import) := do
  s.require [.imports]
  .ok ((s.imports.filter fun r => r.importer = .ofId importer).filterMap ImportRow.toImport?)

def documentationOf (s : Store) (documented : EntityId) : Except Error (Option Documentation) := do
  s.require [.documentation]
  match s.documentation.find? fun r => r.documented = .ofId documented with
  | none => .ok none
  | some r =>
    match r.toDocumentation? with
    | some d => .ok (some d)
    | none => .error .storage

def typesOf (s : Store) (symbol : EntityId) : Except Error (List EntityId) := do
  s.require [.types]
  .ok (((s.types.filter fun r => r.symbol = .ofId symbol).filterMap fun r => r.type.id?).mergeSort
    fun a b => (compareIds a b).isLE)

/-- The number of rows of the table of that name. -/
def countRows (s : Store) (name : String) : Except Error Nat :=
  match (Vocabulary.ofWord? name : Option TableName) with
  | none => .error (.unknownTable name)
  | some t => do
    s.require [t]
    .ok (s.size t)

/-- The number of rows of every table, in the order in which tables are written. -/
structure Statistics where
  tables : List (TableName × Nat)

def statistics (s : Store) : Except Error Statistics := do
  s.require Vocabulary.all
  .ok ⟨Vocabulary.all.map fun t => (t, s.size t)⟩

namespace Statistics

/-- Names and counts. -/
def rows (st : Statistics) : List (String × Nat) :=
  st.tables.map fun (t, n) => (Vocabulary.word t, n)

/-- The count of the table of that name; a table that does not exist counts zero. -/
def get (st : Statistics) (name : String) : Nat :=
  ((st.rows.find? fun r => r.1 = name).map Prod.snd).getD 0

/-- One line per table under a heading. -/
def toText (st : Statistics) : String :=
  "Database Statistics:\n" ++
    String.join (st.rows.map fun (name, n) => "  " ++ name ++ ": " ++ Nat.repr n ++ "\n")

end Statistics

end SymbolIndex.Store
