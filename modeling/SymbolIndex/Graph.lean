import SymbolIndex.Relation

/-!
# `SymbolIndex.Graph` — records that wait for the end of a session

Nodes, entities and relations in the order in which they arrived. They are written in dependency
order: nodes, then entities, then relations.

## Contents
- `Graph` and `addNode`, which keeps one declaration node per identifier.
- `GraphCounts`: how many nodes, entities and relations there are.
-/

namespace SymbolIndex

structure Graph where
  /-- Declaration nodes. -/
  nodes : List Node := []
  /-- Usage nodes, which stay in the ledger until the graph is written. -/
  usages : List Node := []
  vars : List Variable := []
  functions : List Function := []
  classes : List Class := []
  members : List ClassMember := []
  inheritance : List Inheritance := []
  imports : List Import := []
  documentation : List Documentation := []
  types : List TypeAssociation := []
  deriving DecidableEq, Inhabited

/-- How many nodes, entities and relations a graph holds. -/
structure GraphCounts where
  nodes : Nat
  entities : Nat
  relations : Nat
  deriving DecidableEq, Repr, Inhabited

namespace GraphCounts

def total (c : GraphCounts) : Nat :=
  c.nodes + c.entities + c.relations

/-- One line per count under a heading. -/
def toText (c : GraphCounts) : String :=
  "Pending Graph:\n  AST nodes: " ++ Nat.repr c.nodes ++ "\n  Entities: " ++ Nat.repr c.entities ++
    "\n  Relations: " ++ Nat.repr c.relations ++ "\n"

end GraphCounts

namespace Graph

def empty : Graph := {}

/-- Whether a declaration node with the identifier is there. -/
def hasNode (g : Graph) (id : NodeId) : Bool :=
  g.nodes.any fun n => n.id = id

/-- Adds a declaration node unless its identifier is taken; the flag says whether it was added. -/
def addNode (g : Graph) (node : Node) : Graph × Bool :=
  if g.hasNode node.id then (g, false) else ({ g with nodes := g.nodes ++ [node] }, true)

/-- Every node in the order in which they are written. -/
def allNodes (g : Graph) : List Node :=
  g.nodes ++ g.usages

def counts (g : Graph) : GraphCounts where
  nodes := g.nodes.length + g.usages.length
  entities := g.vars.length + g.functions.length + g.classes.length
  relations := g.members.length + g.inheritance.length + g.imports.length + g.documentation.length +
    g.types.length

def isEmpty (g : Graph) : Bool :=
  g.counts.total == 0

end Graph

end SymbolIndex
