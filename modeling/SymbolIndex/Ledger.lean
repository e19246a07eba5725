import SymbolIndex.Dictionary
import SymbolIndex.Symbol

/-!
# `SymbolIndex.Ledger` — deduplicated usages per entity

Usages reach the ledger with an entity's own record and with the member lists of classes. The ledger
keeps at most one node per entity and location, the first one, and remembers the order in which
entities were registered.

Locations are kept beside the nodes that stand at them, so that a usage is known without going through
the nodes, and the order of registration is kept beside the entries. Neither can fall out of step: each
record carries the equation that ties its two parts.

## Contents
- `Ledger.Entry`: the usages of one entity.
- `Ledger`; `register` and `insert`, the two operations that change it.
- `usages`, `contains`, `records`, `total`; `nodes`, which empties the entries one after another.
-/

namespace SymbolIndex

/-- The usages of one entity in order of arrival, and the locations that they stand at. -/
structure Ledger.Entry where
  nodes : List Node := []
  seen : List Location := []
  seen_eq : seen = nodes.map Node.location := by rfl
  deriving Inhabited

structure Ledger where
  entries : Dictionary EntityId Ledger.Entry := .empty
  /-- The entities in order of registration. -/
  order : List EntityId := []
  order_eq : order = entries.keys := by rfl
  deriving Inhabited

namespace Ledger

/-- The entry with one more usage at its end. -/
def Entry.add (entry : Entry) (node : Node) : Entry where
  nodes := entry.nodes ++ [node]
  seen := entry.seen ++ [node.location]
  seen_eq := by rw [entry.seen_eq, List.map_append, List.map_singleton]

def empty : Ledger := {}

/-- The usages recorded for an entity, in order of arrival. -/
def usages (l : Ledger) (entity : EntityId) : List Node :=
  match l.entries.find? entity with
  | some entry => entry.nodes
  | none => []

/-- Whether an entity has been registered. -/
def contains (l : Ledger) (entity : EntityId) : Bool :=
  l.entries.contains entity

/-- Opens an entry for an entity unless it has one. -/
def register (l : Ledger) (entity : EntityId) : Ledger :=
  if known : l.contains entity = true then l
  else {
    entries := l.entries.put entity {}
    order := l.order ++ [entity]
    order_eq := by
      rw [l.order_eq, Dictionary.keys_put, if_neg (mt Dictionary.contains_iff.mpr known)] }

/-- Whether a usage of the entity is recorded at the location. -/
def records (l : Ledger) (entity : EntityId) (location : Location) : Bool :=
  (l.usages entity).any fun n => n.location = location

/-- Puts another entry in the place of the one that an entity has. -/
def replace (l : Ledger) (entity : EntityId) (entry : Entry) (known : l.contains entity = true) : Ledger where
  entries := l.entries.put entity entry
  order := l.order
  order_eq := by rw [l.order_eq, Dictionary.keys_put, if_pos (Dictionary.contains_iff.mp known)]

theorem contains_of_find? {l : Ledger} {entity : EntityId} {entry : Entry}
    (found : l.entries.find? entity = some entry) : l.contains entity = true := by
  unfold contains Dictionary.contains
  rw [found]
  rfl

/-- Records a usage unless one of the same entity at the same location is there; the flag says
whether it was added. -/
def insert (l : Ledger) (entity : EntityId) (node : Node) : Ledger × Bool :=
  let l := l.register entity
  match found : l.entries.find? entity with
  | none => (l, false)
  | some entry =>
    if node.location ∈ entry.seen then (l, false)
    else (l.replace entity (entry.add node) (contains_of_find? found), true)

/-- The usages of entities, one entity after another. What has been read is taken out of the entries. -/
def drain : List EntityId → Dictionary EntityId Entry → List Node
  | [], _ => []
  | entity :: order, entries =>
    match entries.find? entity with
    | some entry => entry.nodes ++ drain order (entries.erase entity)
    | none => drain order entries

/-- Every recorded usage, entity by entity in order of registration. -/
def nodes (l : Ledger) : List Node :=
  drain l.order l.entries

/-- The number of recorded usages. -/
def total (l : Ledger) : Nat :=
  l.entries.values.foldl (fun n entry => n + entry.nodes.length) 0

end Ledger

end SymbolIndex
