import SymbolIndex.Proofs.Store.Commit
import SymbolIndex.Proofs.Store.FirstWriter

/-!
# `Proofs.Store.Builds` — a file is committed whole or not at all

Committing a file touches three tables. The table of files has two keys, and only one of them is made up
for: a known identifier takes the new status and keeps its path, while a path that another identifier has
stops everything. The other two tables are bound to each other by a number that the store gives out, and
what makes the numbers of the pairs those of the build actions is that no number is given out twice.

Files may be brought here under any identifier, also one that is not that of their path, and batches may
come between. A batch adds files and touches neither what is there nor the build actions.

## Contents
- `Linked`: what the tables of files and builds have in every reached store.
- `filter_putFile_other`, `exists_putFile`: the file rows after a commit.
- `Committed`, `Accounted.commit`: a commit that goes through; `Accounted.refuse`: one that does not.
- `file_commits_are_whole`.
-/

namespace SymbolIndex.Store

open Vocabulary

variable {s s' : Store} {f : File} {rows : List FileRow} {files : List File} {g : Graph}

/-! ## The file rows after a commit -/

theorem ids_putFile (distinct : (rows.map FileRow.id).Nodup) :
    ((putFile rows f).map FileRow.id).Nodup := by
  unfold putFile
  split
  · rw [List.map_map]
    have same : FileRow.id ∘ (restated · f) = FileRow.id := funext fun r => restated_id r f
    rwa [same]
  · rename_i free
    apply nodup_keys_append distinct
    · simp
    · intro y hy r hr same
      rw [List.mem_singleton.mp hy] at same
      exact free (List.any_eq_true.mpr ⟨r, hr, decide_eq_true same⟩)

/-- The rows of other identifiers are what they were. -/
theorem filter_putFile_other (rows : List FileRow) (f : File) :
    (putFile rows f).filter (fun r => r.id ≠ f.id) = rows.filter fun r => r.id ≠ f.id := by
  unfold putFile
  split
  · rw [List.filter_map]
    have same : (fun r : FileRow => decide (r.id ≠ f.id)) ∘ (restated · f) =
        fun r => decide (r.id ≠ f.id) := by
      funext r
      simp only [Function.comp_apply, restated_id]
    rw [same]
    refine (List.map_congr_left fun r hr => ?_).trans (List.map_id' _)
    exact if_neg (of_decide_eq_true (List.mem_filter.mp hr).2)
  · rw [List.filter_append]
    simp [FileRow.ofFile]

/-- The row of the file has the new status, and its path is the old one if there is one. -/
theorem exists_putFile (rows : List FileRow) (f : File) :
    ∃ r ∈ putFile rows f, r.id = f.id ∧ r.status = word f.status ∧
      ((∃ old ∈ rows, old.id = f.id ∧ r.path = old.path) ∨
        (∀ old ∈ rows, old.id ≠ f.id) ∧ r.path = f.path) := by
  by_cases known : ∃ old ∈ rows, old.id = f.id
  · rw [putFile_of_known known]
    obtain ⟨old, hold, same⟩ := known
    refine ⟨restated old f, List.mem_map.mpr ⟨old, hold, rfl⟩, ?_, ?_, Or.inl ⟨old, hold, same, ?_⟩⟩
    · rw [restated_id, same]
    · rw [restated, if_pos same]
    · rw [restated_path]
  · have free : ∀ old ∈ rows, old.id ≠ f.id := fun old hold same => known ⟨old, hold, same⟩
    refine ⟨.ofFile f, ?_, rfl, rfl, Or.inr ⟨free, rfl⟩⟩
    unfold putFile
    rw [if_neg]
    · exact List.mem_append_right _ (List.mem_singleton.mpr rfl)
    · intro there
      obtain ⟨old, hold, same⟩ := List.any_eq_true.mp there
      exact free old hold (of_decide_eq_true same)

/-! ## What every reached store has -/

/-- No two files share an identifier or a path. The pairs have the numbers of the build actions, in the
same order and each of them once, and lead to files that are there. -/
structure Linked (s : Store) : Prop where
  ids : (s.files.map FileRow.id).Nodup
  paths : (s.files.map FileRow.path).Nodup
  numbers : (s.actions.map ActionRow.id).Nodup
  pairs : s.sources.map SourceRow.action = s.actions.map fun a => .integer a.id
  files : ∀ p ∈ s.sources, ∃ r ∈ s.files, p.file = .ofId r.id

/-- What carries `Linked` from call to call: new numbers are above the old ones. -/
structure Accounted (s : Store) : Prop where
  regular : s.Regular
  numbered : s.Numbered
  linked : s.Linked

/-- The store `s'` is what is left of `s` when a file has been committed: there is one more build action,
under a new number, and a pair that links it to the file. Of the file rows only that of the file is another,
and of the other tables none. -/
structure Committed (s : Store) (f : File) (action : BuildAction) (s' : Store) : Prop where
  tables : ∃ n : Nat, (∀ a ∈ s.actions, a.id < n) ∧ s' = { s with
    files := s'.files
    actions := s.actions ++ [⟨n, action.command⟩]
    sources := s.sources ++ [⟨.ofId f.id, .integer n⟩]
    lastAction := n }
  others : s'.files.filter (fun r => r.id ≠ f.id) = s.files.filter fun r => r.id ≠ f.id
  own : ∃ r ∈ s'.files, r.id = f.id ∧ r.status = word f.status ∧
    ((∃ old ∈ s.files, old.id = f.id ∧ r.path = old.path) ∨
      (∀ old ∈ s.files, old.id ≠ f.id) ∧ r.path = f.path)

namespace Accounted

/-- The store after a file that is not blocked, under the number after the last one. -/
theorem commit (h : s.Accounted) (free : ¬ Blocked s.files f) (room : (s.lastAction : Int) < lastNumber)
    (action : BuildAction) :
    ∃ s', s.persistFile f action = .ok s' ∧ Committed s f action s' ∧ s'.Accounted := by
  have committed := commitFile_of_not_blocked free
  have ok := persistFile_of_commitFile h.regular.whole h.numbered committed action
  rw [if_pos room] at ok
  have above : ∀ a ∈ s.actions, a.id < (s.lastAction + 1 : Nat) := by
    intro a ha
    have le := h.numbered.actions a ha
    omega
  refine ⟨_, ok, ⟨⟨_, above, rfl⟩, filter_putFile_other _ f, exists_putFile _ f⟩, ⟨?_, ?_, ?_⟩⟩
  · refine ⟨h.regular.whole.persistFile ok, ?_⟩
    exact h.regular.owned
  · exact h.numbered.recorded _ f.id _
  · constructor
    case ids => exact ids_putFile h.linked.ids
    case paths => exact nodup_path_commitFile committed h.linked.paths
    case numbers =>
      apply nodup_keys_append h.linked.numbers
      · simp
      · intro y hy a ha same
        rw [List.mem_singleton.mp hy] at same
        exact absurd same (Int.ne_of_lt (above a ha))
    case pairs =>
      show (s.sources ++ _).map SourceRow.action = (s.actions ++ _).map fun a => Datum.integer a.id
      rw [List.map_append, List.map_append, h.linked.pairs]
      rfl
    case files =>
      intro p hp
      rcases List.mem_append.mp hp with old | new
      · obtain ⟨r, hr, same⟩ := h.linked.files p old
        obtain ⟨r', hr', kept⟩ := mem_ids_putFile (f := f) (Or.inl ⟨r, hr, rfl⟩)
        exact ⟨r', hr', by rw [same, kept]⟩
      · obtain ⟨r, hr, own⟩ : ∃ r ∈ putFile s.files f, r.id = f.id := mem_ids_putFile (Or.inr rfl)
        rw [List.mem_singleton.mp new]
        exact ⟨r, hr, by rw [own]⟩

/-- A file that is blocked is refused, and so is any file if no number is left. -/
theorem refuse (h : s.Accounted) (stopped : Blocked s.files f ∨ ¬ (s.lastAction : Int) < lastNumber)
    (action : BuildAction) : s.persistFile f action = .error .storage := by
  by_cases blocked : Blocked s.files f
  · exact persistFile_of_blocked h.regular.whole blocked action
  · have full := stopped.resolve_left blocked
    rw [persistFile_of_commitFile h.regular.whole h.numbered (commitFile_of_not_blocked blocked),
      if_neg full]

/-- A batch puts files behind those that are there and leaves the build actions alone. -/
theorem batch (h : s.Accounted) (files : List File) (g : Graph) :
    ∃ added, ((Call.batch files g).apply s).files = s.files ++ added ∧
      ((Call.batch files g).apply s).Accounted := by
  obtain ⟨a, first, store, _⟩ := writeAll_first h.regular.owned files g
  have after : (Call.batch files g).apply s = a.appendedTo s := by
    unfold Call.apply
    dsimp only
    rw [h.regular.persistBatch files g]
    exact store
  refine ⟨a.files.map FileRow.ofFile, by rw [after]; rfl, ?_⟩
  refine ⟨h.regular.apply _, ?_, ?_⟩
  · rw [after]
    exact ⟨h.numbered.actions, h.numbered.sources⟩
  · rw [after]
    constructor
    case ids => exact first.files.nodup_keys (fun _ _ => Or.inl) h.linked.ids
    case paths => exact first.files.nodup_keys (fun _ _ => Or.inr) h.linked.paths
    case numbers => exact h.linked.numbers
    case pairs => exact h.linked.pairs
    case files =>
      intro p hp
      obtain ⟨r, hr, same⟩ := h.linked.files p hp
      exact ⟨r, List.mem_append_left _ hr, same⟩

theorem apply (h : s.Accounted) (call : Call) : (call.apply s).Accounted := by
  cases call with
  | batch files g =>
    obtain ⟨_, _, after⟩ := h.batch files g
    exact after
  | file f action =>
    unfold Call.apply
    dsimp only
    by_cases stopped : Blocked s.files f ∨ ¬ (s.lastAction : Int) < lastNumber
    · rw [h.refuse stopped]
      exact h
    · obtain ⟨free, room⟩ := not_or.mp stopped
      obtain ⟨s', ok, _, after⟩ := h.commit free (Decidable.not_not.mp room) action
      rw [ok]
      exact after

theorem empty : Accounted empty where
  regular := .empty
  numbered := ⟨fun _ ha => (nomatch ha), fun _ hp => (nomatch hp)⟩
  linked := ⟨List.nodup_nil, List.nodup_nil, List.nodup_nil, rfl, fun _ hp => (nomatch hp)⟩

theorem reached (calls : List Call) : (Store.reached calls).Accounted := by
  induction calls using List.reverseRecOn with
  | nil => exact empty
  | append_singleton calls call ih =>
    have last : Store.reached (calls ++ [call]) = call.apply (Store.reached calls) := List.foldl_append
    rw [last]
    exact ih.apply call

end Accounted

/-- **A file is committed whole or not at all**, and builds are kept in pairs. In every store that calls
have reached, whatever they brought, identifiers and paths of files are each distinct, and pairs and build
actions go together one to one, by numbers of which none comes twice, every pair with a file that is there.
A file that is committed to such a store either leaves the store as it is, which happens if its identifier
is new while its path is not and if the numbers have run out; or one build action is added with the pair
that links it to the file, the row of the file has the given status and the path that it had, if it had one,
and nothing else is changed. A batch leaves all files as they are, with their statuses and paths. -/
theorem file_commits_are_whole (calls : List Call) :
    let s := reached calls
    s.Linked ∧
      (∀ f action, let s' := (Call.file f action).apply s
        (s.persistFile f action = .ok s' ∧ Committed s f action s') ∨
        (∃ err, s.persistFile f action = .error err) ∧ s' = s ∧
          (Blocked s.files f ∨ s.nextAction? = none)) ∧
      ∀ files g, s.files <+: ((Call.batch files g).apply s).files := by
  intro s
  have h : s.Accounted := .reached calls
  refine ⟨h.linked, fun f action => ?_, fun files g => ?_⟩
  · by_cases stopped : Blocked s.files f ∨ ¬ (s.lastAction : Int) < lastNumber
    · have refused := h.refuse stopped action
      refine Or.inr ⟨⟨_, refused⟩, ?_, stopped.imp_right fun full => ?_⟩
      · unfold Call.apply
        dsimp only
        rw [refused]
      · rw [h.numbered.nextAction?, if_neg full]
    · obtain ⟨free, room⟩ := not_or.mp stopped
      obtain ⟨s', ok, committed, _⟩ := h.commit free (Decidable.not_not.mp room) action
      have after : (Call.file f action).apply s = s' := by
        unfold Call.apply
        dsimp only
        rw [ok]
      rw [after]
      exact Or.inl ⟨ok, committed⟩
  · obtain ⟨added, more, _⟩ := h.batch files g
    exact ⟨added, more.symm⟩

end SymbolIndex.Store
