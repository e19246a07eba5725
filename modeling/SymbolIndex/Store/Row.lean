import SymbolIndex.Relation
import SymbolIndex.Source
import SymbolIndex.Store.Datum
import SymbolIndex.Store.Table

/-!
# `SymbolIndex.Store.Row` — rows of the tables

A row holds what its columns hold. A table whose key is one identifier has that identifier as a row
key and no other; every further identifier, line or flag is a `Datum`, since such a column can hold
anything, and kinds and states are words. Each record has a row that it is written as; where a column
may hold more than the record, reading a row back can fail.

## Contents
- One row type for each table.
- The relation `clash` of each row type: which rows cannot stand beside each other.
- Records as rows and back; `NodeRow.toNode?_ofNode` and its like say that what is written is read
  back.
-/

namespace SymbolIndex.Store

open Vocabulary

structure FileRow where
  id : FileId
  path : String
  status : String
  deriving DecidableEq, Inhabited

/-- A build action has the number that a counter gave it, unless the number was overwritten. -/
structure ActionRow where
  id : Int
  command : String
  deriving DecidableEq, Inhabited

structure SourceRow where
  file : Datum
  action : Datum
  deriving DecidableEq, Inhabited

structure NodeRow where
  id : NodeId
  qualifiedName : String
  symbol : String
  type : String
  file : Datum
  startLine : Datum
  startColumn : Datum
  stopLine : Datum
  stopColumn : Datum
  deriving DecidableEq, Inhabited

structure EntityRow where
  id : EntityId
  node : Datum
  name : String
  qualifiedName : String
  visibility : String
  deriving DecidableEq, Inhabited

structure FunctionVariableRow where
  functionId : Datum
  role : String
  position : Datum
  variableId : Datum
  deriving DecidableEq, Inhabited

structure MemberRow where
  owner : Datum
  member : Datum
  node : Datum
  kind : String
  isStatic : Datum
  deriving DecidableEq, Inhabited

structure InheritanceRow where
  derived : Datum
  base : Datum
  deriving DecidableEq, Inhabited

structure ImportRow where
  node : Datum
  importer : Datum
  imported : Datum
  symbol : Option Datum
  deriving DecidableEq, Inhabited

structure DocumentationRow where
  documented : Datum
  kind : String
  text : String
  deriving DecidableEq, Inhabited

structure TypeRow where
  symbol : Datum
  type : Datum
  deriving DecidableEq, Inhabited

/-- In which list of a function a variable stands. -/
inductive Role where
  | parameter
  | localVariable
  deriving DecidableEq, Repr, Inhabited

instance : Vocabulary Role where
  noun := "role"
  all := [.parameter, .localVariable]
  word
    | .parameter => "parameter"
    | .localVariable => "local"
  mem_all a := by cases a <;> decide
  word_injective a b := by cases a <;> cases b <;> decide

/-! ## Keys -/

def ActionRow.clash : ActionRow → ActionRow → Bool := sameKey ActionRow.id

def SourceRow.clash : SourceRow → SourceRow → Bool := sameKey id

/-- Files share neither an identifier nor a path. -/
def FileRow.clash (a b : FileRow) : Bool :=
  decide (a.id = b.id) || decide (a.path = b.path)

def NodeRow.clash : NodeRow → NodeRow → Bool := sameKey NodeRow.id

def EntityRow.clash : EntityRow → EntityRow → Bool := sameKey EntityRow.id

def FunctionVariableRow.clash : FunctionVariableRow → FunctionVariableRow → Bool :=
  sameKey fun r => (r.functionId, r.role, r.position)

def MemberRow.clash : MemberRow → MemberRow → Bool :=
  sameKey fun r => (r.owner, r.member, r.kind, r.isStatic)

def InheritanceRow.clash : InheritanceRow → InheritanceRow → Bool := sameKey id

/-- Imports have no key. -/
def ImportRow.clash : ImportRow → ImportRow → Bool := never

def DocumentationRow.clash : DocumentationRow → DocumentationRow → Bool :=
  sameKey fun r => (r.documented, r.kind)

def TypeRow.clash : TypeRow → TypeRow → Bool := sameKey id

/-! ## Records as rows -/

def FileRow.ofFile (f : File) : FileRow :=
  ⟨f.id, f.path, word f.status⟩

def NodeRow.ofNode (n : Node) : NodeRow where
  id := n.id
  qualifiedName := n.qualifiedName
  symbol := word n.symbol
  type := word n.type
  file := .ofId n.location.file
  startLine := .ofWord32 n.location.range.start.line
  startColumn := .ofWord32 n.location.range.start.column
  stopLine := .ofWord32 n.location.range.stop.line
  stopColumn := .ofWord32 n.location.range.stop.column

def EntityRow.ofEntity (e : Entity) : EntityRow :=
  ⟨e.id, .ofId e.node, e.name, e.qualifiedName, e.visibility⟩

/-- A list of variables, each with its place in the list. -/
def FunctionVariableRow.ofList (function : EntityId) (role : Role) (vars : List EntityId) :
    List FunctionVariableRow :=
  vars.zipIdx.map fun (v, i) => ⟨.ofId function, word role, .integer i, .ofId v⟩

/-- The parameters of a function, then its locals. -/
def FunctionVariableRow.ofFunction (f : Function) : List FunctionVariableRow :=
  ofList f.entity.id .parameter f.parameters ++ ofList f.entity.id .localVariable f.locals

def MemberRow.ofMember (m : ClassMember) : MemberRow :=
  ⟨.ofId m.owner, .ofId m.member, .ofId m.node, word m.kind, .ofFlag m.isStatic⟩

def InheritanceRow.ofInheritance (e : Inheritance) : InheritanceRow :=
  ⟨.ofId e.derived, .ofId e.base⟩

def ImportRow.ofImport (i : Import) : ImportRow :=
  ⟨.ofId i.node, .ofId i.importer, .ofId i.imported, i.symbol.map .ofId⟩

def DocumentationRow.ofDocumentation (d : Documentation) : DocumentationRow :=
  ⟨.ofId d.documented, word d.kind, d.text⟩

def TypeRow.ofType (t : TypeAssociation) : TypeRow :=
  ⟨.ofId t.symbol, .ofId t.type⟩

/-! ## Rows as records -/

def FileRow.toFile? (r : FileRow) : Option File := do
  let status ← ofWord? r.status
  some ⟨r.id, r.path, status⟩

def NodeRow.toNode? (r : NodeRow) : Option Node := do
  let symbol ← ofWord? r.symbol
  let type ← ofWord? r.type
  let startLine ← r.startLine.word32?
  let startColumn ← r.startColumn.word32?
  let stopLine ← r.stopLine.word32?
  let stopColumn ← r.stopColumn.word32?
  let file ← r.file.id?
  some {
    id := r.id
    location := ⟨file, ⟨⟨startLine, startColumn⟩, ⟨stopLine, stopColumn⟩⟩⟩
    qualifiedName := r.qualifiedName
    symbol, type }

def MemberRow.toMember? (r : MemberRow) : Option ClassMember := do
  let kind ← ofWord? r.kind
  some ⟨← r.owner.id?, ← r.member.id?, ← r.node.id?, kind, ← r.isStatic.flag?⟩

def InheritanceRow.toInheritance? (r : InheritanceRow) : Option Inheritance := do
  some ⟨← r.derived.id?, ← r.base.id?⟩

/-- An identifier that may be absent. -/
def optionalId? {subject : Subject} : Option Datum → Option (Option (Id subject))
  | none => some none
  | some d => d.id?.map some

def ImportRow.toImport? (r : ImportRow) : Option Import := do
  some ⟨← r.node.id?, ← r.importer.id?, ← r.imported.id?, ← optionalId? r.symbol⟩

def DocumentationRow.toDocumentation? (r : DocumentationRow) : Option Documentation := do
  let kind ← ofWord? r.kind
  some ⟨r.text, ← r.documented.id?, kind⟩

theorem NodeRow.toNode?_ofNode (n : Node) : (NodeRow.ofNode n).toNode? = some n := by
  simp [NodeRow.ofNode, NodeRow.toNode?, ofWord?_word]

theorem MemberRow.toMember?_ofMember (m : ClassMember) :
    (MemberRow.ofMember m).toMember? = some m := by
  simp [MemberRow.ofMember, MemberRow.toMember?, ofWord?_word]

theorem ImportRow.toImport?_ofImport (i : Import) : (ImportRow.ofImport i).toImport? = some i := by
  obtain ⟨node, importer, imported, symbol⟩ := i
  cases symbol <;> simp [ImportRow.ofImport, ImportRow.toImport?, optionalId?]

end SymbolIndex.Store
