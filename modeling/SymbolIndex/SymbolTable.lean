import SymbolIndex.Dictionary
import SymbolIndex.Error
import SymbolIndex.Symbol

/-!
# `SymbolIndex.SymbolTable` — from qualified names to entities

One table covers variables, functions and classes. The first declaration registered under a name
owns it; later declarations of that name are refused. A class moves once through
unseen → preprocessed → resolved; what belongs to it may be attached only on the last step.

## Contents
- `Handle`: what the table knows of an entity.
- `register`, `resolveClass`: the two operations that change a table.
- `lookup` and its narrowed forms, `classState`.
-/

namespace SymbolIndex

/-- What the symbol table knows of an entity. -/
structure Handle where
  kind : EntityKind
  id : EntityId
  node : NodeId
  deriving DecidableEq, Repr, Inhabited

def Entity.handle (e : Entity) : Handle :=
  ⟨e.kind, e.id, e.node⟩

structure SymbolTable where
  entries : Dictionary String Handle := .empty
  states : Dictionary EntityId ClassState := .empty
  deriving Inhabited

namespace SymbolTable

def empty : SymbolTable := {}

/-- Any entity by its qualified name. The empty name is never found. -/
def lookup (t : SymbolTable) (name : String) : Option Handle :=
  if name = "" then none else t.entries.find? name

/-- The entity of that name, if it is of that kind. -/
def lookupKind (t : SymbolTable) (kind : EntityKind) (name : String) : Option Handle :=
  (t.lookup name).filter fun h => h.kind = kind

def lookupVariable (t : SymbolTable) : String → Option Handle := t.lookupKind .variable
def lookupFunction (t : SymbolTable) : String → Option Handle := t.lookupKind .function
def lookupClass (t : SymbolTable) : String → Option Handle := t.lookupKind .classType

/-- The state of the class of that name; a name that is no class is unseen. -/
def classState (t : SymbolTable) (name : String) : ClassState :=
  ((t.lookupClass name).bind fun h => t.states.find? h.id).getD .unseen

/-- Registers an entity under its qualified name; a class becomes preprocessed. -/
def register (t : SymbolTable) (e : Entity) : Except Error SymbolTable :=
  if e.qualifiedName = "" then
    .error (.missingField "qualified_name")
  else
    match t.entries.find? e.qualifiedName with
    | some existing => .error (.duplicateDeclaration e.qualifiedName existing.kind)
    | none =>
      .ok {
        entries := t.entries.put e.qualifiedName e.handle
        states := if e.kind = .classType then t.states.put e.id .preprocessed else t.states }

/-- Moves a class from preprocessed to resolved. From any other state the transition is refused. -/
def resolveClass (t : SymbolTable) (name : String) : Except Error (Handle × SymbolTable) :=
  match t.classState name, t.lookupClass name with
  | .preprocessed, some h => .ok (h, { t with states := t.states.put h.id .resolved })
  | state, _ => .error (.invalidTransition name state .resolved)

def size (t : SymbolTable) : Nat :=
  t.entries.size

def isEmpty (t : SymbolTable) : Bool :=
  t.size == 0

end SymbolTable

end SymbolIndex
