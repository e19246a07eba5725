import SymbolIndex.Proofs.Store.Batch

/-!
# `Proofs.Store.Again` — a batch that is written once more

A table takes an offer once. So a store that has taken a batch takes nothing of it when it comes again,
and every record of it is a conflict. There is one exception: imports have no key, so each of them is
written again. The variables of functions are offered only with a function that is new, so they are not
even counted.

## Contents
- `Covers`: a store that has what a batch brings; `covers_writeAll`.
- `writeAll_of_covers`: the store and the report after such a batch.
-/

namespace SymbolIndex.Store

variable {s : Store} {files : List File} {g : Graph}

/-- For every record but the imports there is a row that it clashes with. -/
structure Covers (s : Store) (files : List File) (g : Graph) : Prop where
  files : fresh FileRow.clash s.files (files.map FileRow.ofFile) = []
  nodes : fresh NodeRow.clash s.nodes (g.allNodes.map NodeRow.ofNode) = []
  vars : fresh EntityRow.clash s.vars (g.vars.map fun v => EntityRow.ofEntity v.entity) = []
  functions : ∀ f ∈ g.functions, taken EntityRow.clash s.functions (EntityRow.ofEntity f.entity) = true
  classes : fresh EntityRow.clash s.classes (g.classes.map fun c => EntityRow.ofEntity c.entity) = []
  members : fresh MemberRow.clash s.members (g.members.map MemberRow.ofMember) = []
  inheritance :
    fresh InheritanceRow.clash s.inheritance (g.inheritance.map InheritanceRow.ofInheritance) = []
  documentation : fresh DocumentationRow.clash s.documentation
    (g.documentation.map DocumentationRow.ofDocumentation) = []
  types : fresh TypeRow.clash s.types (g.types.map TypeRow.ofType) = []

/-- A batch leaves a store that has what the batch brought. -/
theorem covers_writeAll (b : Batch) (files : List File) (g : Graph) :
    Covers (b.writeAll files g).store files g := by
  rw [Batch.store_writeAll]
  constructor
  case files =>
    refine fresh_merge (fun row => ?_) _ _
    unfold FileRow.clash
    rw [decide_eq_true rfl, Bool.true_or]
  case functions =>
    exact fun f hf => taken_merge (sameKey_self _) _ (List.mem_map.mpr ⟨f, hf, rfl⟩)
  all_goals exact fresh_merge (sameKey_self _) _ _

namespace Batch

/-- Functions that are there leave their variables out too. -/
theorem writeFunctions_of_taken {b : Batch} {functions : List Function}
    (there : ∀ f ∈ functions, taken EntityRow.clash b.store.functions (.ofEntity f.entity) = true) :
    b.writeFunctions functions = b.count .functions functions.length 0 b.store := by
  induction functions generalizing b with
  | nil => simp [writeFunctions, count]
  | cons f fs ih =>
    have first : b.writeFunction f = b.count .functions 1 0 b.store :=
      if_pos (there f List.mem_cons_self)
    have rest : (b.count .functions 1 0 b.store).writeFunctions fs =
        (b.count .functions 1 0 b.store).count .functions fs.length 0 b.store :=
      ih fun g hg => there g (List.mem_cons_of_mem f hg)
    show (b.writeFunction f).writeFunctions fs = _
    rw [first, rest]
    simp only [count, List.length_cons, Nat.sub_zero, Nat.add_zero, List.append_assoc,
      List.replicate_append_replicate, Nat.add_assoc, Nat.add_comm 1]

end Batch

/-- **A batch that is written once more brings imports and nothing else.** Every other record is a
conflict. -/
theorem writeAll_of_covers (h : Covers s files g) :
    (Batch.writeAll { store := s } files g).store =
        { s with imports := s.imports ++ g.imports.map ImportRow.ofImport } ∧
      (Batch.writeAll { store := s } files g).report =
        ⟨g.imports.length, g.counts.total - g.imports.length⟩ := by
  have imports : fresh ImportRow.clash s.imports (g.imports.map ImportRow.ofImport) =
      g.imports.map ImportRow.ofImport := fresh_never _ _
  have functions : ∀ b : Batch, b.store = s →
      b.writeFunctions g.functions = b.count .functions g.functions.length 0 s := by
    rintro b rfl
    exact Batch.writeFunctions_of_taken h.functions
  unfold Batch.writeAll
  simp only [Batch.writeFiles, Batch.writeNodes, Batch.writeVariables, Batch.writeRows, Batch.count,
    h.files, h.nodes, h.vars, List.append_nil, List.length_map]
  rw [functions _ rfl]
  simp only [Batch.writeClasses, Batch.takeMembers, Batch.writeInheritance, Batch.takeImports,
    Batch.writeDocumentation, Batch.writeTypes, Batch.writeRows, Batch.count, h.classes, h.members,
    h.inheritance, imports, h.documentation, h.types, List.append_nil, List.length_nil, List.length_map]
  refine ⟨trivial, ?_⟩
  rw [BatchReport.mk.injEq]
  simp only [Graph.counts, GraphCounts.total, Graph.allNodes, List.length_append]
  omega

end SymbolIndex.Store
