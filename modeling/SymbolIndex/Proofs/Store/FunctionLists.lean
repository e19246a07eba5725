import SymbolIndex.Proofs.Store.FirstWriter
import SymbolIndex.Store.Query

/-!
# `Proofs.Store.FunctionLists` — the variables of a function are stored whole or not at all

A batch may bring a function that the store has, or the same function twice, and each time with other
variables. Only one of these records is ever written, the one that comes first of all that any call
brings, and it is written with both of its lists; of the others nothing is. So a store is at any time what
some function records make of it (`Holds`), and reading the variables of a function in a role gives the
list of its one record.

What carries this is that variables come with their functions only (`Owned`). A function whose row finds
its place free therefore meets no variable of its identifier, and none of its variables is ever left out.

## Contents
- `Holds`, `Holds.apply`: the function records in a store.
- `Holds.filter_variables`, `positions_ofList`, `read_ofList`: one list of one function.
- `functionVariables_not_mem_conflicts`.
- `function_lists_are_stored_whole`.
-/

namespace SymbolIndex

open Vocabulary

/-- The variables of a function in a role, in order. -/
def Function.variablesIn (f : Function) : Store.Role → List EntityId
  | .parameter => f.parameters
  | .localVariable => f.locals

namespace Store

/-! ## The function records in a store -/

/-- The functions that a call brings. -/
def Call.functions : Call → List Function
  | .file _ _ => []
  | .batch _ g => g.functions

/-- The functions of a store are those of some records, with all variables of these and no others. -/
structure Holds (s : Store) (written : List Function) : Prop where
  rows : s.functions = written.map fun f => EntityRow.ofEntity f.entity
  lists : s.functionVariables = written.flatMap FunctionVariableRow.ofFunction

namespace Holds

variable {s : Store} {written : List Function}

/-- A call adds the records that come first of those that it brings. -/
theorem apply (regular : s.Regular) (h : s.Holds written) (call : Call) :
    ∃ added, FirstCome (fun f => EntityRow.ofEntity f.entity) (fun a b => a.id = b.id) s.functions
        call.functions added ∧ (call.apply s).Holds (written ++ added) := by
  cases call with
  | file f action =>
    refine ⟨[], .nothing, ?_⟩
    rw [List.append_nil]
    unfold Call.apply
    dsimp only
    cases ok : s.persistFile f action with
    | error err => exact h
    | ok s' =>
      obtain ⟨_, _, _, _, _, rfl⟩ := persistFile_eq_ok ok
      exact ⟨h.rows, h.lists⟩
  | batch files g =>
    obtain ⟨a, first, store, _⟩ := writeAll_first regular.owned files g
    refine ⟨a.functions, first.functions, ?_⟩
    unfold Call.apply
    dsimp only
    rw [regular.persistBatch files g]
    dsimp only
    rw [store]
    constructor
    · simp only [Addition.appendedTo, h.rows, List.map_append]
    · simp only [Addition.appendedTo, h.lists, List.flatMap_append]

/-- **A reached store holds the records that come first** of all that the calls bring. -/
theorem reached (calls : List Call) :
    ∃ written, FirstCome (fun f => EntityRow.ofEntity f.entity) (fun a b => a.id = b.id) []
      (calls.flatMap Call.functions) written ∧ (Store.reached calls).Holds written := by
  induction calls using List.reverseRecOn with
  | nil => exact ⟨[], .nothing, rfl, rfl⟩
  | append_singleton calls call ih =>
    obtain ⟨written, before, holds⟩ := ih
    obtain ⟨added, first, after⟩ := holds.apply (regular_reached calls) call
    have last : Store.reached (calls ++ [call]) = call.apply (Store.reached calls) := List.foldl_append
    refine ⟨written ++ added, ?_, last ▸ after⟩
    rw [List.flatMap_append, List.flatMap_singleton]
    refine before.append ?_
    rwa [List.nil_append, ← holds.rows]

end Holds

/-! ## One list of one function -/

/-- Of the rows of a function, those in a role are the rows of the list in that role. -/
theorem filter_ofFunction (f : Function) (role : Role) :
    (FunctionVariableRow.ofFunction f).filter (fun r => r.role = word role) =
      FunctionVariableRow.ofList f.entity.id role (f.variablesIn role) := by
  have own (other : Role) (vars : List EntityId) :
      (FunctionVariableRow.ofList f.entity.id other vars).filter (fun r => r.role = word role) =
        if other = role then FunctionVariableRow.ofList f.entity.id other vars else [] := by
    split
    · rename_i same
      refine List.filter_eq_self.mpr fun r hr => ?_
      obtain ⟨_, _, rfl⟩ := List.mem_map.mp hr
      simp [same]
    · rename_i differ
      refine List.filter_eq_nil_iff.mpr fun r hr => ?_
      obtain ⟨_, _, rfl⟩ := List.mem_map.mp hr
      simpa using fun same => differ (word_injective _ _ same)
  unfold FunctionVariableRow.ofFunction
  rw [List.filter_append, own, own]
  cases role <;> simp [Function.variablesIn]

/-- Of records with distinct identifiers, the rows of one function are those of its record. -/
theorem filter_flatMap_ofFunction {written : List Function} {f : Function} (hf : f ∈ written)
    (distinct : (written.map fun f => f.entity.id).Nodup) :
    (written.flatMap FunctionVariableRow.ofFunction).filter
      (fun r => r.functionId = .ofId f.entity.id) = FunctionVariableRow.ofFunction f := by
  have own (g : Function) : (FunctionVariableRow.ofFunction g).filter
      (fun r => r.functionId = .ofId f.entity.id) =
        if g.entity.id = f.entity.id then FunctionVariableRow.ofFunction g else [] := by
    split
    · rename_i same
      refine List.filter_eq_self.mpr fun r hr => ?_
      simp [(mem_ofFunction hr).1, same]
    · rename_i differ
      refine List.filter_eq_nil_iff.mpr fun r hr => ?_
      simpa [(mem_ofFunction hr).1] using fun same => differ (Datum.ofId_injective same)
  obtain ⟨before, after, rfl⟩ := List.append_of_mem hf
  rw [List.map_append, List.map_cons, List.nodup_append, List.nodup_cons] at distinct
  obtain ⟨_, ⟨notAfter, _⟩, apart⟩ := distinct
  -- neither before nor after the record there is another one of its identifier
  have earlier : before.flatMap (fun g => (FunctionVariableRow.ofFunction g).filter
      (fun r => r.functionId = .ofId f.entity.id)) = [] := by
    refine List.flatMap_eq_nil_iff.mpr fun g hg => ?_
    rw [own, if_neg]
    exact apart _ (List.mem_map.mpr ⟨g, hg, rfl⟩) _ List.mem_cons_self
  have later : after.flatMap (fun g => (FunctionVariableRow.ofFunction g).filter
      (fun r => r.functionId = .ofId f.entity.id)) = [] := by
    refine List.flatMap_eq_nil_iff.mpr fun g hg => ?_
    rw [own, if_neg]
    exact fun same => notAfter (List.mem_map.mpr ⟨g, hg, same⟩)
  rw [List.filter_flatMap, List.flatMap_append, List.flatMap_cons, earlier, later, own, if_pos rfl]
  simp

/-- The positions in a list count up from zero. -/
theorem positions_ofList (function : EntityId) (role : Role) (vars : List EntityId) :
    (FunctionVariableRow.ofList function role vars).map FunctionVariableRow.position =
      (List.range vars.length).map fun n : Nat => .integer n := by
  unfold FunctionVariableRow.ofList
  rw [List.map_map, List.range_eq_range', ← List.zipIdx_map_snd 0 vars, List.map_map]
  rfl

/-- A list is in the order of its positions, and its variables read back. -/
theorem read_ofList (function : EntityId) (role : Role) (vars : List EntityId) :
    ((FunctionVariableRow.ofList function role vars).mergeSort
      fun a b => (a.position.compare b.position).isLE).filterMap (fun r => r.variableId.id?) = vars := by
  have ordered : (FunctionVariableRow.ofList function role vars).Pairwise
      fun a b => (a.position.compare b.position).isLE = true := by
    have positions : ((FunctionVariableRow.ofList function role vars).map
        FunctionVariableRow.position).Pairwise fun a b => (a.compare b).isLE = true := by
      rw [positions_ofList]
      refine List.pairwise_map.mpr (List.pairwise_lt_range.imp ?_)
      intro m n less
      have le : (m : Int) ≤ n := by omega
      exact Int.isLE_compare.mpr le
    exact List.pairwise_map.mp positions
  rw [List.mergeSort_of_pairwise ordered]
  unfold FunctionVariableRow.ofList
  rw [List.filterMap_map]
  show vars.zipIdx.filterMap (fun v => (Datum.ofId v.1).id?) = vars
  simp only [Datum.id?_ofId]
  rw [List.filterMap_eq_map', List.zipIdx_map_fst]

/-- The rows of a function in a role are its list in that role. -/
theorem Holds.filter_variables {s : Store} {written : List Function} (h : s.Holds written)
    (distinct : (written.map fun f => f.entity.id).Nodup) {f : Function} (hf : f ∈ written) (role : Role) :
    (s.functionVariables.filter fun r => r.functionId = .ofId f.entity.id ∧ r.role = word role) =
      FunctionVariableRow.ofList f.entity.id role (f.variablesIn role) := by
  rw [← filter_ofFunction, ← filter_flatMap_ofFunction hf distinct, ← h.lists, List.filter_filter]
  refine List.filter_congr fun r _ => ?_
  rw [Bool.decide_and, Bool.and_comm]

/-! ## Conflicts -/

namespace Batch

variable {b : Batch} {t : TableName}

theorem mem_conflicts_count {u : TableName} {offered taken : Nat} {s : Store}
    (h : t ∈ (b.count u offered taken s).conflicts) : t ∈ b.conflicts ∨ t = u := by
  unfold count at h
  exact (List.mem_append.mp h).imp_right List.eq_of_mem_replicate

/-- A function that is left out is a conflict of its own; its variables are never one. -/
theorem mem_conflicts_writeFunction (owned : b.store.Owned) {f : Function}
    (h : t ∈ (b.writeFunction f).conflicts) : t ∈ b.conflicts ∨ t = .functions := by
  by_cases there : Store.taken EntityRow.clash b.store.functions (EntityRow.ofEntity f.entity) = true
  · have left : b.writeFunction f = b.count .functions 1 0 b.store := if_pos there
    rw [left] at h
    exact mem_conflicts_count h
  · have new : f.entity.id ∉ b.store.functions.map EntityRow.id := fun known =>
      there (taken_sameKey.mpr known)
    rw [writeFunction_all new] at h
    · exact Or.inl h
    · intro r hr same
      obtain ⟨owner, hown, own⟩ := owned r hr
      refine new (List.mem_map.mpr ⟨owner, hown, ?_⟩)
      exact Datum.ofId_injective (own.symm.trans same)

theorem mem_conflicts_writeFunctions (owned : b.store.Owned) {functions : List Function}
    (h : t ∈ (b.writeFunctions functions).conflicts) : t ∈ b.conflicts ∨ t = .functions := by
  induction functions using List.reverseRecOn with
  | nil => exact Or.inl h
  | append_singleton functions f ih =>
    have last : b.writeFunctions (functions ++ [f]) = (b.writeFunctions functions).writeFunction f :=
      List.foldl_append
    rw [last] at h
    rcases mem_conflicts_writeFunction (owned.writeFunctions functions) h with earlier | here
    · exact ih earlier
    · exact Or.inr here

/-- **No variable of a function is ever left out for a conflict.** -/
theorem functionVariables_not_mem_conflicts {s : Store} (owned : s.Owned) (files : List File) (g : Graph) :
    .functionVariables ∉ (writeAll { store := s } files g).conflicts := by
  intro h
  unfold writeAll at h
  dsimp only at h
  -- the stages after the functions and before them belong to other tables
  replace h := (mem_conflicts_count h).resolve_right nofun
  replace h := (mem_conflicts_count h).resolve_right nofun
  replace h := (mem_conflicts_count h).resolve_right nofun
  replace h := (mem_conflicts_count h).resolve_right nofun
  replace h := (mem_conflicts_count h).resolve_right nofun
  replace h := (mem_conflicts_count h).resolve_right nofun
  replace h := (mem_conflicts_writeFunctions ?owned h).resolve_right nofun
  case owned => exact owned
  replace h := (mem_conflicts_count h).resolve_right nofun
  replace h := (mem_conflicts_count h).resolve_right nofun
  cases h

end Batch

/-- **The variables of a function are stored whole or not at all.** Whatever the calls bring, the functions
of a store that they have reached are those of the records that come first, one for each identifier. For
either role the rows of a function count their positions up from zero, and reading them gives the list of
its one record. No row belongs to a function that is not there, and no batch ever leaves one out for a
conflict. -/
theorem function_lists_are_stored_whole (calls : List Call) :
    let s := reached calls
    ∃ written, FirstCome (fun f => EntityRow.ofEntity f.entity) (fun a b => a.id = b.id) []
        (calls.flatMap Call.functions) written ∧
      s.functions = written.map (fun f => EntityRow.ofEntity f.entity) ∧
      (∀ r ∈ s.functions, ∃! f, f ∈ written ∧ f.entity.id = r.id) ∧
      (∀ f ∈ written, ∀ role,
        ((s.functionVariables.filter fun r => r.functionId = .ofId f.entity.id ∧ r.role = word role).map
          FunctionVariableRow.position) =
            (List.range (f.variablesIn role).length).map (fun n : Nat => Datum.integer n) ∧
        s.variablesOf f.entity.id (word role) = .ok (f.variablesIn role)) ∧
      (∀ r ∈ s.functionVariables, ∃ f ∈ s.functions, r.functionId = .ofId f.id) ∧
      ∀ files g, .functionVariables ∉ (s.persistBatch files g).conflicts := by
  intro s
  obtain ⟨written, first, holds⟩ := Holds.reached calls
  have regular : s.Regular := regular_reached calls
  have distinct : (written.map fun f => f.entity.id).Nodup := by
    have keys : (([] ++ written.map fun f : Function => EntityRow.ofEntity f.entity).map
        EntityRow.id).Nodup :=
      first.nodup_keys (fun _ _ same => same) (by simp)
    rwa [List.nil_append, List.map_map] at keys
  refine ⟨written, first, holds.rows, ?_, ?_, regular.owned, ?_⟩
  · intro r hr
    rw [holds.rows] at hr
    obtain ⟨f, hf, rfl⟩ := List.mem_map.mp hr
    exact ⟨f, ⟨hf, rfl⟩, fun g ⟨hg, same⟩ => List.inj_on_of_nodup_map distinct hg hf same⟩
  · intro f hf role
    have list := holds.filter_variables distinct hf role
    refine ⟨by rw [list, positions_ofList], ?_⟩
    unfold Store.variablesOf
    rw [regular.whole.require, list]
    exact congrArg Except.ok (read_ofList _ role _)
  · intro files g
    have conflicts : (s.persistBatch files g).conflicts =
        (Batch.writeAll { store := s } files g).conflicts := by
      unfold Store.persistBatch
      rw [runBatch_of_whole regular.whole]
    rw [conflicts]
    exact Batch.functionVariables_not_mem_conflicts regular.owned files g

end Store

end SymbolIndex
