import SymbolIndex.Proofs.Store.Batch

/-!
# `Proofs.Store.Undocumented` — a batch with its documentation and without it

Documentation is the last table but one that a batch writes, and no stage reads it. Two batches of
which one leaves documentation out are therefore the same batch up to that stage, and after it they
differ in the table of documentation and in what has been counted of it (`Undocumented`).

The stage itself is where the two could part: a store that cannot be written lets a batch go on only
if there is nothing to write. Documentation without a node would end the one batch and not the other,
so the theorem asks for a node where there is documentation.

## Contents
- `Graph.undocumented`, `Undocumented`.
- `Alike`: two computations that fail or succeed together; how stages keep it.
- `runBatch_undocumented`.
-/

namespace SymbolIndex

/-- A graph without its documentation. -/
def Graph.undocumented (g : Graph) : Graph :=
  { g with documentation := [] }

namespace Store

variable {s : Store} {files : List File} {g : Graph}

namespace Batch

variable {α β : Type} {b b' : Batch}

/-- `b'` wrote what `b` did, but for `n` records of documentation. -/
structure Undocumented (s : Store) (n : Nat) (b b' : Batch) : Prop where
  store : b'.store = { b.store with documentation := s.documentation }
  counts : b.report.written + b.report.conflicts = b'.report.written + b'.report.conflicts + n

/-- Two computations fail or succeed together, and then their results are related. -/
def Alike {ε : Type} (R : α → α → Prop) : Except ε α → Except ε α → Prop
  | .ok a, .ok b => R a b
  | .error _, .error _ => True
  | _, _ => False

theorem Alike.bind {ε : Type} {R : α → α → Prop} {Q : β → β → Prop} {x y : Except ε α}
    {f g : α → Except ε β} (h : Alike R x y) (next : ∀ a b, R a b → Alike Q (f a) (g b)) :
    Alike Q (x >>= f) (y >>= g) := by
  cases x with
  | ok a =>
    cases y with
    | ok b => exact next a b h
    | error err => exact h.elim
  | error err =>
    cases y with
    | ok b => exact h.elim
    | error err' => trivial

/-- Two stages are alike if both batches are admitted or none is. -/
theorem Alike.stage {R : Batch → Batch → Prop} {tables : List TableName} {xs : List α} {ys : List β}
    {next next' : Except (List TableName) Batch} (same : b.admits tables xs = b'.admits tables ys)
    (h : Alike R next next') : Alike R (b.stage tables xs next) (b'.stage tables ys next') := by
  unfold Batch.stage
  rw [same]
  split
  · exact h
  · trivial

/-- One batch that has come to where documentation is written, or to a stage before. -/
structure Unread (s : Store) (b : Batch) : Prop where
  documentation : b.store.documentation = s.documentation
  isReadOnly : b.store.isReadOnly = s.isReadOnly

theorem Unread.step (h : Unread s b) (documentation : b'.store.documentation = b.store.documentation)
    (isReadOnly : b'.store.isReadOnly = b.store.isReadOnly) : Unread s b' :=
  ⟨documentation.trans h.documentation, isReadOnly.trans h.isReadOnly⟩

/-- A stage before documentation is the same stage in both batches. -/
theorem Alike.before {ε : Type} (s : Store) {Q : β → β → Prop} {x : Except ε Batch} {f g : Batch → Except ε β}
    (unread : ∀ b, x = .ok b → Unread s b) (rest : ∀ b, Unread s b → Alike Q (f b) (g b)) :
    Alike Q (x >>= f) (x >>= g) := by
  refine Alike.bind (R := fun b b' => b' = b ∧ Unread s b) ?_ ?_
  · cases x with
    | ok b => exact ⟨rfl, unread b rfl⟩
    | error err => trivial
  · rintro b b' ⟨same, h⟩
    rw [same]
    exact rest b h

theorem stage_eq_ok {b b' : Batch} {tables : List TableName} {xs : List α} {next : Except (List TableName) Batch}
    (ok : b.stage tables xs next = .ok b') : next = .ok b' := by
  unfold stage at ok
  split at ok
  · exact ok
  · cases ok

theorem Alike.passed {Q : β → β → Prop} {f g : Batch → Except (List TableName) β}
    {tables : List TableName} {xs : List α} (unread : Unread s b')
    (rest : ∀ b, Unread s b → Alike Q (f b) (g b)) :
    Alike Q (b.stage tables xs (.ok b') >>= f) (b.stage tables xs (.ok b') >>= g) := by
  refine Alike.before s (fun next ok => ?_) rest
  cases stage_eq_ok ok
  exact unread

theorem Unread.numbered {ρ : Type} {t : TableName} {clash : ρ → ρ → Bool} {rows offer : List ρ}
    {put : List ρ → Store} (h : Unread s b) (ok : b.writeNumbered t clash rows offer put = .ok b')
    (documentation : ∀ rows, (put rows).documentation = b.store.documentation)
    (isReadOnly : ∀ rows, (put rows).isReadOnly = b.store.isReadOnly) : Unread s b' := by
  unfold writeNumbered at ok
  split at ok
  · cases ok
  · cases ok
    exact h.step (documentation _) (isReadOnly _)

theorem Unread.members {members : List ClassMember} (h : Unread s b)
    (ok : b.writeMembers members = .ok b') : Unread s b' :=
  h.numbered ok (fun _ => rfl) fun _ => rfl

theorem Unread.imports {imports : List Import} (h : Unread s b)
    (ok : b.writeImports imports = .ok b') : Unread s b' :=
  h.numbered ok (fun _ => rfl) fun _ => rfl

theorem Unread.functions (h : Unread s b) (functions : List Function) :
    Unread s (b.writeFunctions functions) := by
  refine h.step ?_ ?_ <;> rw [store_writeFunctions]

/-- The stage that parts the two batches. -/
theorem alike_documentation (unread : Unread s b) {documentation : List Documentation}
    (writable : s.isReadOnly = true → documentation = []) :
    Alike (Undocumented s documentation.length)
      (b.stage [.documentation] documentation (.ok (b.writeDocumentation documentation)))
      (b.stage [.documentation] ([] : List Documentation) (.ok (b.writeDocumentation []))) := by
  refine Alike.stage ?_ ⟨?_, ?_⟩
  · unfold admits
    rw [unread.isReadOnly]
    cases readOnly : s.isReadOnly with
    | false => rfl
    | true => rw [writable readOnly]
  · unfold writeDocumentation
    rw [store_writeRows, store_writeRows, List.map_nil, merge_nil, unread.documentation]
  · unfold writeDocumentation
    rw [counted_writeRows, counted_writeRows, List.length_map, List.map_nil, List.length_nil]
    omega

/-- The stage after it reads nothing of documentation. -/
theorem alike_types {n : Nat} (h : Undocumented s n b b') (types : List TypeAssociation) :
    Alike (Undocumented s n) (b.stage [.types] types (.ok (b.writeTypes types)))
      (b'.stage [.types] types (.ok (b'.writeTypes types))) := by
  obtain ⟨store, counts⟩ := h
  refine Alike.stage ?_ ⟨?_, ?_⟩
  · unfold admits isMissing
    rw [store]
  · unfold writeTypes
    rw [store_writeRows, store_writeRows, store]
  · unfold writeTypes
    rw [counted_writeRows, counted_writeRows]
    omega

end Batch

/-- A store that cannot be written refuses every batch that brings a node. -/
theorem runBatch_of_readOnly (files : List File) (readOnly : s.isReadOnly = true) (brings : g.allNodes ≠ []) :
    ∃ conflicts, s.runBatch files g = .error conflicts := by
  unfold runBatch
  dsimp only
  cases first : Batch.stage { store := s } [.files] files (.ok (Batch.writeFiles { store := s } files)) with
  | error conflicts => exact ⟨conflicts, rfl⟩
  | ok b =>
    have still : b.store.isReadOnly = true := by
      cases Batch.stage_eq_ok first
      exact readOnly
    have refused : b.stage [.nodes] g.allNodes (.ok (b.writeNodes g.allNodes)) = .error b.conflicts := by
      simp [Batch.stage, Batch.admits, still, brings]
    refine ⟨b.conflicts, ?_⟩
    show (b.stage [.nodes] g.allNodes (.ok (b.writeNodes g.allNodes)) >>= _) = _
    rw [refused]
    rfl

open Batch in
/-- **A batch comes to the same with its documentation and without it**, but for the table of
documentation, and every record of it is counted once. -/
theorem runBatch_undocumented (s : Store) (files : List File) (g : Graph)
    (brings : g.documentation ≠ [] → g.allNodes ≠ []) :
    Alike (Undocumented s g.documentation.length) (s.runBatch files g)
      (s.runBatch files g.undocumented) := by
  by_cases stopped : s.isReadOnly = true ∧ g.allNodes ≠ []
  · obtain ⟨conflicts, failed⟩ := runBatch_of_readOnly files stopped.1 stopped.2
    obtain ⟨conflicts', failed'⟩ := runBatch_of_readOnly (g := g.undocumented) files stopped.1 stopped.2
    rw [failed, failed']
    trivial
  · have writable : s.isReadOnly = true → g.documentation = [] := by
      intro readOnly
      by_contra held
      exact stopped ⟨readOnly, brings held⟩
    have start : Unread s { store := s } := ⟨rfl, rfl⟩
    unfold runBatch
    -- up to documentation the two batches are one
    refine Alike.passed (start.step rfl rfl) fun b unread => ?_
    refine Alike.passed (unread.step rfl rfl) fun b unread => ?_
    refine Alike.passed (unread.step rfl rfl) fun b unread => ?_
    refine Alike.passed (unread.functions g.functions) fun b unread => ?_
    refine Alike.passed (unread.step rfl rfl) fun b unread => ?_
    refine Alike.before s (fun _ ok => unread.members (stage_eq_ok ok)) fun b unread => ?_
    refine Alike.passed (unread.step rfl rfl) fun b unread => ?_
    refine Alike.before s (fun _ ok => unread.imports (stage_eq_ok ok)) fun b unread => ?_
    refine (alike_documentation unread writable).bind ?_
    exact fun b b' apart => alike_types apart g.types

end Store

end SymbolIndex
