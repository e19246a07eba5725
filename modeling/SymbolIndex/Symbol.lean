import SymbolIndex.Identity

/-!
# `SymbolIndex.Symbol` — located occurrences and the entities they declare

Every occurrence of a symbol is a `Node`. A declared symbol is also an `Entity`; a function adds the
ordered identifiers of its parameters and local variables, while members and bases of a class are
relations.
-/

namespace SymbolIndex

/-- A located occurrence of a symbol. -/
structure Node where
  id : NodeId
  location : Location
  qualifiedName : String
  symbol : SymbolType
  type : NodeType
  deriving DecidableEq, Inhabited

namespace Node

/-- The node with the identifier that its content determines. -/
def make (qualifiedName : String) (symbol : SymbolType) (type : NodeType) (location : Location) :
    Node :=
  { id := nodeId qualifiedName symbol type location, location, qualifiedName, symbol, type }

def declaration (qualifiedName : String) (symbol : SymbolType) (location : Location) : Node :=
  make qualifiedName symbol .declaration location

def usage (qualifiedName : String) (symbol : SymbolType) (location : Location) : Node :=
  make qualifiedName symbol .usage location

end Node

/-- What every declared symbol has. -/
structure Entity where
  id : EntityId
  kind : EntityKind
  /-- The node that declares it. -/
  node : NodeId
  /-- The short name, such as `f`. -/
  name : String
  /-- The dotted path, such as `pkg.mod.f`. -/
  qualifiedName : String
  visibility : String
  deriving DecidableEq, Inhabited

/-- The entity with the identifier that its kind and qualified name determine. -/
def Entity.make (kind : EntityKind) (name qualifiedName visibility : String) (node : NodeId) :
    Entity :=
  { id := entityId kind qualifiedName, kind, node, name, qualifiedName, visibility }

structure Variable where
  entity : Entity
  deriving DecidableEq, Inhabited

structure Function where
  entity : Entity
  /-- Parameter variables in declaration order. -/
  parameters : List EntityId
  /-- Local variables in declaration order. -/
  locals : List EntityId
  deriving DecidableEq, Inhabited

structure Class where
  entity : Entity
  deriving DecidableEq, Inhabited

end SymbolIndex
