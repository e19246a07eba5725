import SymbolIndex.Symbol

/-!
# `SymbolIndex.Relation` — relations between entities

Relations are kept back until every node and entity has been written, so that each points only at
records that exist.
-/

namespace SymbolIndex

/-- In which role an entity belongs to a class body. -/
inductive MemberKind where
  | method
  | attribute
  | classType
  deriving DecidableEq, Repr, Inhabited

/-- What a documentation text is attached to. -/
inductive DocumentationKind where
  | function
  | classType
  deriving DecidableEq, Repr, Inhabited

instance : Vocabulary MemberKind where
  noun := "member kind"
  all := [.method, .attribute, .classType]
  word
    | .method => "method"
    | .attribute => "attribute"
    | .classType => "class"
  mem_all a := by cases a <;> decide
  word_injective a b := by cases a <;> cases b <;> decide

instance : Vocabulary DocumentationKind where
  noun := "documentation kind"
  all := [.function, .classType]
  word
    | .function => "function"
    | .classType => "class"
  mem_all a := by cases a <;> decide
  word_injective a b := by cases a <;> cases b <;> decide

/-- Membership of an entity in a class body. -/
structure ClassMember where
  owner : EntityId
  member : EntityId
  /-- The node that declares the member. -/
  node : NodeId
  kind : MemberKind
  isStatic : Bool
  deriving DecidableEq, Inhabited

structure Inheritance where
  derived : EntityId
  base : EntityId
  deriving DecidableEq, Inhabited

/-- One file importing another, possibly for the sake of one symbol in it. -/
structure Import where
  /-- The module declaration node at the place of the import. -/
  node : NodeId
  importer : FileId
  imported : FileId
  symbol : Option EntityId
  deriving DecidableEq, Inhabited

structure Documentation where
  text : String
  documented : EntityId
  kind : DocumentationKind
  deriving DecidableEq, Inhabited

/-- One declared or inferred type of a symbol. -/
structure TypeAssociation where
  symbol : EntityId
  type : EntityId
  deriving DecidableEq, Inhabited

end SymbolIndex
