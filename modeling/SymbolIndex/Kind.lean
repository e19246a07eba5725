import SymbolIndex.Vocabulary

/-!
# `SymbolIndex.Kind` — what a symbol is and how it occurs

- `SymbolType`: what kind of symbol a syntax node refers to.
- `NodeType`: whether the node declares the symbol or uses it.
- `EntityKind`: the three kinds of symbol that can be declared, each with its symbol type.
-/

namespace SymbolIndex

/-- What kind of symbol a syntax node refers to. -/
inductive SymbolType where
  | variable
  | function
  | classType
  | module
  deriving DecidableEq, Repr, Inhabited

/-- Whether a syntax node declares its symbol or uses it. -/
inductive NodeType where
  | declaration
  | usage
  deriving DecidableEq, Repr, Inhabited

/-- The kinds of symbol that can be declared. -/
inductive EntityKind where
  | variable
  | function
  | classType
  deriving DecidableEq, Repr, Inhabited

instance : Vocabulary SymbolType where
  noun := "symbol type"
  all := [.variable, .function, .classType, .module]
  word
    | .variable => "variable"
    | .function => "function"
    | .classType => "class"
    | .module => "module"
  mem_all a := by cases a <;> decide
  word_injective a b := by cases a <;> cases b <;> decide

instance : Vocabulary NodeType where
  noun := "AST type"
  all := [.declaration, .usage]
  word
    | .declaration => "declaration"
    | .usage => "usage"
  mem_all a := by cases a <;> decide
  word_injective a b := by cases a <;> cases b <;> decide

instance : Vocabulary EntityKind where
  noun := "entity kind"
  all := [.variable, .function, .classType]
  word
    | .variable => "variable"
    | .function => "function"
    | .classType => "class"
  mem_all a := by cases a <;> decide
  word_injective a b := by cases a <;> cases b <;> decide

/-- The symbol type of an entity's declaration and usage nodes. -/
def EntityKind.symbolType : EntityKind → SymbolType
  | .variable => .variable
  | .function => .function
  | .classType => .classType

end SymbolIndex
