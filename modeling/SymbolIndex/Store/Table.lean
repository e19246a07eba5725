import SymbolIndex.Vocabulary

/-!
# `SymbolIndex.Store.Table` — tables that keep the first row of each key

A table is the list of its rows in the order in which they were written. Which rows cannot stand
beside each other is a relation `clash` between rows, for a key the equality of two keys.

## Contents
- `TableName`: the tables of a store, in the order in which they are written.
- `fresh`: the rows of an offer that a table takes; `merge`: the table with them.
-/

namespace SymbolIndex.Store

inductive TableName where
  | files
  | actions
  | sources
  | nodes
  | vars
  | functions
  | functionVariables
  | classes
  | members
  | inheritance
  | imports
  | documentation
  | types
  deriving DecidableEq, Repr, Inhabited

instance : Vocabulary TableName where
  noun := "table"
  all := [.files, .actions, .sources, .nodes, .vars, .functions, .functionVariables, .classes,
    .members, .inheritance, .imports, .documentation, .types]
  word
    | .files => "files"
    | .actions => "build_actions"
    | .sources => "build_sources"
    | .nodes => "ast_nodes"
    | .vars => "variables"
    | .functions => "functions"
    | .functionVariables => "function_variables"
    | .classes => "classes"
    | .members => "class_members"
    | .inheritance => "inheritance"
    | .imports => "imports"
    | .documentation => "documentation"
    | .types => "types"
  mem_all a := by cases a <;> decide
  word_injective a b := by cases a <;> cases b <;> decide

variable {ρ : Type}

/-- Whether a row clashes with one that is already there. -/
def taken (clash : ρ → ρ → Bool) (rows : List ρ) (row : ρ) : Bool :=
  rows.any (clash row)

/-- The rows of an offer that find their place free, each offered after the ones before it. -/
def fresh (clash : ρ → ρ → Bool) (rows : List ρ) : (offer : List ρ) → List ρ
  | [] => []
  | row :: offer =>
    if taken clash rows row then fresh clash rows offer
    else row :: fresh clash (rows ++ [row]) offer

/-- A table after an offer: its old rows, then the fresh ones. -/
def merge (clash : ρ → ρ → Bool) (rows offer : List ρ) : List ρ :=
  rows ++ fresh clash rows offer

theorem merge_nil (clash : ρ → ρ → Bool) (rows : List ρ) : merge clash rows [] = rows := by
  simp [merge, fresh]

theorem merge_cons (clash : ρ → ρ → Bool) (rows : List ρ) (row : ρ) (offer : List ρ) :
    merge clash rows (row :: offer) =
      merge clash (if taken clash rows row then rows else rows ++ [row]) offer := by
  simp only [merge, fresh]
  split <;> simp

/-- What a table takes is a part of the offer, in the same order. -/
theorem fresh_sublist (clash : ρ → ρ → Bool) (rows offer : List ρ) :
    (fresh clash rows offer).Sublist offer := by
  induction offer generalizing rows with
  | nil => exact .slnil
  | cons row offer ih =>
    simp only [fresh]
    split
    · exact (ih rows).cons row
    · exact (ih (rows ++ [row])).cons_cons row

/-- The clash of two rows with equal keys. -/
def sameKey {κ : Type} [DecidableEq κ] (key : ρ → κ) (a b : ρ) : Bool :=
  decide (key a = key b)

/-- The clash of a table without a key: there is none. -/
def never (_ _ : ρ) : Bool := false

end SymbolIndex.Store
