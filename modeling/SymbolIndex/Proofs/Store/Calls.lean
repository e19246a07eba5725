import SymbolIndex.Proofs.Store.Intact

/-!
# `Proofs.Store.Calls` — the stores that calls make of an empty one

A store is written through two calls only, for one file and for a batch, and either leaves it as it was
when it fails. What holds of an empty store and is kept by both calls therefore holds of every store that
is ever reached. Nothing is asked here of what the calls bring: records may come with any identifiers,
repeat each other, or point nowhere.

## Contents
- `Call`, `reached`.
- `Owned`: variables of functions belong to functions that are there.
- `Regular`: what every store has that calls have reached; `regular_reached`.
-/

namespace SymbolIndex.Store

/-- A call that writes to a store. -/
inductive Call where
  | file (f : File) (action : BuildAction)
  | batch (files : List File) (g : Graph)

/-- The store after a call; one that fails leaves it as it was. -/
def Call.apply (s : Store) : Call → Store
  | .file f action =>
    match s.persistFile f action with
    | .ok s' => s'
    | .error _ => s
  | .batch files g =>
    match (s.persistBatch files g).result with
    | .ok (s', _) => s'
    | .error _ => s

/-- The store that calls make of an empty one. -/
def reached (calls : List Call) : Store :=
  calls.foldl Call.apply empty

/-! ## Variables of functions -/

/-- Every variable of a function belongs to a function that is there. -/
def Owned (s : Store) : Prop :=
  ∀ r ∈ s.functionVariables, ∃ f ∈ s.functions, r.functionId = .ofId f.id

namespace Owned

variable {s t : Store}

/-- Functions bring their variables with them or leave both out. -/
theorem taken (h : s.Owned) (functions : List Function)
    (rows : t.functions =
      merge EntityRow.clash s.functions (functions.map fun f => EntityRow.ofEntity f.entity))
    (vars : t.functionVariables =
      Batch.takeVariables s.functions s.functionVariables functions) : t.Owned := by
  intro r hr
  rw [vars] at hr
  rw [rows]
  rcases Batch.mem_takeVariables hr with old | ⟨f, hf, new⟩
  · obtain ⟨owner, hown, same⟩ := h r old
    exact ⟨owner, mem_merge_of_mem hown, same⟩
  · have offered : f.entity.id ∈
        (functions.map fun f => EntityRow.ofEntity f.entity).map EntityRow.id :=
      List.mem_map.mpr ⟨_, List.mem_map.mpr ⟨f, hf, rfl⟩, rfl⟩
    obtain ⟨owner, hown, same⟩ := List.mem_map.mp (mem_keys_merge s.functions offered)
    exact ⟨owner, hown, by rw [(mem_ofFunction new).1, same]⟩

theorem writeFunctions {b : Batch} (h : b.store.Owned) (functions : List Function) :
    (b.writeFunctions functions).store.Owned := by
  refine h.taken functions ?_ ?_ <;> rw [Batch.store_writeFunctions]

theorem writeAll {b : Batch} (h : b.store.Owned) (files : List File) (g : Graph) :
    (b.writeAll files g).store.Owned := by
  refine h.taken g.functions ?_ ?_ <;> rw [Batch.store_writeAll]

end Owned

/-! ## Reached stores -/

/-- A store that only calls have written. -/
structure Regular (s : Store) : Prop where
  whole : s.Whole
  owned : s.Owned

namespace Regular

variable {s : Store}

theorem empty : Regular empty where
  whole := whole_empty
  owned _ hr := nomatch hr

/-- On such a store no batch fails. -/
theorem persistBatch (h : Regular s) (files : List File) (g : Graph) :
    (s.persistBatch files g).result =
      .ok ((Batch.writeAll { store := s } files g).store,
        (Batch.writeAll { store := s } files g).report) := by
  unfold Store.persistBatch
  rw [runBatch_of_whole h.whole]

theorem apply (h : Regular s) (call : Call) : Regular (call.apply s) := by
  cases call with
  | file f action =>
    unfold Call.apply
    dsimp only
    cases ok : s.persistFile f action with
    | error err => exact h
    | ok s' =>
      refine ⟨h.whole.persistFile ok, ?_⟩
      obtain ⟨_, _, _, _, _, rfl⟩ := persistFile_eq_ok ok
      exact h.owned
  | batch files g =>
    unfold Call.apply
    dsimp only
    rw [h.persistBatch files g]
    refine ⟨?_, Owned.writeAll (b := { store := s }) h.owned files g⟩
    dsimp only
    rw [Batch.store_writeAll]
    exact ⟨h.whole.missing, h.whole.writable, h.whole.rooms⟩

end Regular

/-- **What both calls keep, every reached store has.** -/
theorem regular_reached (calls : List Call) : Regular (reached calls) := by
  unfold reached
  have kept : ∀ s, Regular s → Regular (calls.foldl Call.apply s) := by
    induction calls with
    | nil => exact fun s h => h
    | cons call calls ih => exact fun s h => ih _ (h.apply call)
  exact kept _ Regular.empty

end SymbolIndex.Store
