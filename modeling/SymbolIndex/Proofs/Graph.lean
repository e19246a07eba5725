import SymbolIndex.Graph

/-!
# `Proofs.Graph` — graphs one after another

Every buffer of a graph only grows at its end, so what an event adds to a graph is again a graph, and
adding it is `++`, buffer by buffer. The entities of the three kinds are read through one function.

## Contents
- `Graph.append`, with equations for its buffers.
- `Graph.entities`: the entities of a kind; `Graph.allEntities`.
- `Graph.Perm`: the same records in another order; `append_right_comm`.
- `addNode_fst`: adding a node appends it or nothing.
-/

namespace SymbolIndex.Graph

variable {g h : Graph}

def append (g h : Graph) : Graph where
  nodes := g.nodes ++ h.nodes
  usages := g.usages ++ h.usages
  vars := g.vars ++ h.vars
  functions := g.functions ++ h.functions
  classes := g.classes ++ h.classes
  members := g.members ++ h.members
  inheritance := g.inheritance ++ h.inheritance
  imports := g.imports ++ h.imports
  documentation := g.documentation ++ h.documentation
  types := g.types ++ h.types

instance : Append Graph := ⟨append⟩

theorem append_def (g h : Graph) : g ++ h = g.append h := rfl

@[simp] theorem nodes_append (g h : Graph) : (g ++ h).nodes = g.nodes ++ h.nodes := rfl
@[simp] theorem usages_append (g h : Graph) : (g ++ h).usages = g.usages ++ h.usages := rfl
@[simp] theorem imports_append (g h : Graph) : (g ++ h).imports = g.imports ++ h.imports := rfl
@[simp] theorem inheritance_append (g h : Graph) :
    (g ++ h).inheritance = g.inheritance ++ h.inheritance := rfl
@[simp] theorem documentation_append (g h : Graph) :
    (g ++ h).documentation = g.documentation ++ h.documentation := rfl
@[simp] theorem types_append (g h : Graph) : (g ++ h).types = g.types ++ h.types := rfl

theorem append_empty (g : Graph) : g ++ {} = g := by
  simp only [append_def, append, List.append_nil]

theorem append_assoc (g h k : Graph) : g ++ h ++ k = g ++ (h ++ k) := by
  simp only [append_def, append, List.append_assoc]

/-- The entities of a kind, in order. -/
def entities (g : Graph) : EntityKind → List Entity
  | .variable => g.vars.map Variable.entity
  | .function => g.functions.map Function.entity
  | .classType => g.classes.map Class.entity

@[simp] theorem entities_append (g h : Graph) (kind : EntityKind) :
    (g ++ h).entities kind = g.entities kind ++ h.entities kind := by
  cases kind <;> exact List.map_append

/-- All entities, kind by kind. -/
def allEntities (g : Graph) : List Entity :=
  g.entities .variable ++ g.entities .function ++ g.entities .classType

theorem perm_allEntities_append (g h : Graph) :
    (g ++ h).allEntities.Perm (g.allEntities ++ h.allEntities) := by
  unfold allEntities
  rw [List.perm_iff_count]
  intro e
  simp only [entities_append, List.count_append]
  omega

/-- Every buffer of one graph is a rearrangement of that of the other. -/
structure Perm (g h : Graph) : Prop where
  nodes : g.nodes.Perm h.nodes
  usages : g.usages.Perm h.usages
  vars : g.vars.Perm h.vars
  functions : g.functions.Perm h.functions
  classes : g.classes.Perm h.classes
  members : g.members.Perm h.members
  inheritance : g.inheritance.Perm h.inheritance
  imports : g.imports.Perm h.imports
  documentation : g.documentation.Perm h.documentation
  types : g.types.Perm h.types

/-- Graphs can be appended in either order. -/
theorem append_right_comm (g h k : Graph) : (g ++ h ++ k).Perm (g ++ k ++ h) := by
  have swap : ∀ {α : Type} (as bs cs : List α), (as ++ bs ++ cs).Perm (as ++ cs ++ bs) := by
    intro α as bs cs
    rw [List.append_assoc, List.append_assoc]
    exact List.perm_append_comm.append_left as
  constructor <;> exact swap _ _ _

theorem hasNode_iff {id : NodeId} : g.hasNode id = true ↔ id ∈ g.nodes.map Node.id := by
  simp [hasNode]

/-- Adding a node appends it, or nothing if its identifier is there. -/
theorem addNode_fst (g : Graph) (n : Node) :
    (g.addNode n).1 = g ++ ({ nodes := if g.hasNode n.id then [] else [n] } : Graph) := by
  unfold addNode
  split <;> simp only [append_def, append, List.append_nil]

/-- After a node is added, its identifier is there. -/
theorem mem_nodes_addNode (g : Graph) (n : Node) : n.id ∈ (g.addNode n).1.nodes.map Node.id := by
  rw [addNode_fst]
  split
  · rename_i known
    rw [nodes_append, List.append_nil]
    exact hasNode_iff.mp known
  · simp

end SymbolIndex.Graph
