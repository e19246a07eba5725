import Mathlib.Data.List.Induction
import SymbolIndex.Proofs.Store.Intact

/-!
# `Proofs.Store.Commit` — committing files to a store that sessions have written

A store may refuse a file because a table is missing, because it can only be read, because the path of
the file belongs to another identifier, or because build actions have run out of numbers. In a store that
only sessions have written none of this can happen but the last (`Tidy`). What becomes of such a store is
then a function of the store and the file (`commit`): the file has one row, with the status that it was
committed with last, and each commit has left a build action of its own.

## Contents
- `putFile`, `recorded`, `commit`.
- `Blocked`, `Numbered`; `persistFile_of_commitFile`: what it takes to commit a file, and what it leaves.
- `Tidy`; `Tidy.persistFile`: committing is `commit` while there are numbers.
- `store_commits`: the store after several files.
- `latest`, `filter_putFiles`: the row of a path.
- `settled_putFile`, `putFiles_of_settled`: files that are committed once more change no row.
-/

namespace SymbolIndex.Store

variable {s s' : Store} {f : File} {files : List File} {rows : List FileRow} {r : FileRow}

/-! ## One file -/

/-- A file row after a file is committed: the row of the file takes its status. -/
def restated (r : FileRow) (f : File) : FileRow :=
  if r.id = f.id then { r with status := Vocabulary.word f.status } else r

/-- The file rows after a file is committed, if no other file has its path. -/
def putFile (rows : List FileRow) (f : File) : List FileRow :=
  if rows.any fun r => r.id = f.id then rows.map (restated · f) else rows ++ [.ofFile f]

/-- The store with other file rows, and with a build action under the number after the last one and the pair
that links it to a file. -/
def recorded (s : Store) (rows : List FileRow) (id : FileId) (command : String) : Store :=
  let number := s.lastAction + 1
  { s with
    files := rows
    actions := s.actions ++ [⟨number, command⟩]
    sources := s.sources ++ [⟨.ofId id, .integer number⟩]
    lastAction := number }

/-- The store after a file is committed, with the number after the last one. -/
def commit (s : Store) (f : File) : Store :=
  let number := s.lastAction + 1
  { s with
    files := putFile s.files f
    actions := s.actions ++ [⟨number, ""⟩]
    sources := s.sources ++ [⟨.ofId f.id, .integer number⟩]
    lastAction := number }

/-- Build actions have numbers up to the last one that has been given out. -/
structure Numbered (s : Store) : Prop where
  actions : ∀ a ∈ s.actions, a.id ≤ s.lastAction
  sources : ∀ p ∈ s.sources, ∃ n : Int, p.action = .integer n ∧ n ≤ s.lastAction

/-- A number that is above all others is the largest. -/
theorem foldl_max_of_le {numbers : List Int} {top : Int} (h : ∀ n ∈ numbers, n ≤ top) :
    numbers.foldl max top = top := by
  induction numbers with
  | nil => rfl
  | cons n numbers ih =>
    rw [List.foldl_cons, Int.max_eq_left (h n List.mem_cons_self)]
    exact ih fun m hm => h m (List.mem_cons_of_mem n hm)

/-- The next number is the one after the last, until they run out. -/
theorem Numbered.nextAction? (h : s.Numbered) :
    s.nextAction? = if (s.lastAction : Int) < lastNumber then some (s.lastAction + 1) else none := by
  have top : (s.actions.map ActionRow.id).foldl max (s.lastAction : Int) = s.lastAction := by
    refine foldl_max_of_le fun n hn => ?_
    obtain ⟨a, ha, rfl⟩ := List.mem_map.mp hn
    exact h.actions a ha
  unfold Store.nextAction?
  rw [top]
  rfl

/-- What every store has that only sessions have written, as far as committing files goes. -/
structure Tidy (s : Store) : Prop where
  whole : s.Whole
  filed : s.Filed
  numbered : s.Numbered

/-- A new store is tidy. -/
theorem tidy_empty : Tidy empty :=
  ⟨whole_empty, filed_empty, fun _ ha => (nomatch ha), fun _ hp => (nomatch hp)⟩

/-- Another identifier has the path of a file, whose own identifier is not known. -/
def Blocked (rows : List FileRow) (f : File) : Prop :=
  (∀ r ∈ rows, r.id ≠ f.id) ∧ ∃ r ∈ rows, r.path = f.path

/-- A blocked file is not committed. -/
theorem commitFile_of_blocked (h : Blocked rows f) : commitFile rows f = .error .storage := by
  obtain ⟨free, r, hr, same⟩ := h
  unfold commitFile
  rw [if_neg, if_pos]
  · exact List.any_eq_true.mpr ⟨r, hr, decide_eq_true same⟩
  · intro known
    obtain ⟨r, hr, same⟩ := List.any_eq_true.mp known
    exact free r hr (of_decide_eq_true same)

/-- Any other is, with a row of its own or with a status for the row that it has. -/
theorem commitFile_of_not_blocked (h : ¬ Blocked rows f) : commitFile rows f = .ok (putFile rows f) := by
  unfold commitFile putFile
  by_cases known : (rows.any fun r => r.id = f.id) = true
  · rw [if_pos known, if_pos known]
    rfl
  · rw [if_neg known, if_neg known, if_neg]
    intro there
    obtain ⟨r, hr, same⟩ := List.any_eq_true.mp there
    refine h ⟨fun r hr same => known ?_, r, hr, of_decide_eq_true same⟩
    exact List.any_eq_true.mpr ⟨r, hr, decide_eq_true same⟩

/-- In a store whose files have the identifiers of their paths, no path is in the way of a file. -/
theorem commitFile_of_filed (h : s.Filed) (hf : f.id = fileId f.path) :
    commitFile s.files f = .ok (putFile s.files f) := by
  apply commitFile_of_not_blocked
  rintro ⟨free, r, hr, same⟩
  exact free r hr (by rw [h r hr, hf, same])

/-- A blocked file stops the commit before a build action gets its number. -/
theorem persistFile_of_blocked (whole : s.Whole) (blocked : Blocked s.files f) (action : BuildAction) :
    s.persistFile f action = .error .storage := by
  have writable : ¬ s.isReadOnly = true := Bool.eq_false_iff.mp whole.writable
  unfold Store.persistFile
  rw [whole.require, commitFile_of_blocked blocked]
  simp only [bind, Except.bind, if_neg writable]

/-- A file that is committed takes the number after the last one, if there is one. -/
theorem persistFile_of_commitFile (whole : s.Whole) (numbered : s.Numbered)
    (committed : commitFile s.files f = .ok rows) (action : BuildAction) :
    s.persistFile f action =
      if (s.lastAction : Int) < lastNumber then .ok (s.recorded rows f.id action.command)
      else .error .storage := by
  -- the pair is new because its number is
  have new : s.sources.contains ⟨.ofId f.id, .integer ((s.lastAction + 1 : Nat) : Int)⟩ = false := by
    refine Bool.eq_false_iff.mpr fun there => ?_
    obtain ⟨n, same, le⟩ := numbered.sources _ (List.contains_iff_mem.mp there)
    have : ((s.lastAction + 1 : Nat) : Int) = n := Datum.integer.inj same
    omega
  have writable : ¬ s.isReadOnly = true := Bool.eq_false_iff.mp whole.writable
  have next := numbered.nextAction?
  unfold Store.persistFile
  rw [whole.require, committed]
  split at next <;> rename_i room
  · rw [if_pos room]
    simp only [bind, Except.bind, if_neg writable, next, new, Bool.false_eq_true, if_false, recorded]
  · rw [if_neg room]
    simp only [bind, Except.bind, if_neg writable, next]

/-- The number after the last one is above all that are in use. -/
theorem Numbered.recorded (h : s.Numbered) (rows : List FileRow) (id : FileId) (command : String) :
    (s.recorded rows id command).Numbered where
  actions a ha := by
    rcases List.mem_append.mp ha with old | new
    · exact Int.le_trans (h.actions a old) (Int.ofNat_le.mpr (Nat.le_succ _))
    · exact Int.le_of_eq (congrArg ActionRow.id (List.mem_singleton.mp new))
  sources p hp := by
    rcases List.mem_append.mp hp with old | new
    · obtain ⟨n, same, le⟩ := h.sources p old
      exact ⟨n, same, Int.le_trans le (Int.ofNat_le.mpr (Nat.le_succ _))⟩
    · rw [List.mem_singleton.mp new]
      exact ⟨_, rfl, Int.le_refl _⟩

namespace Tidy

/-- **A file is committed as long as there are numbers.** -/
theorem persistFile (h : s.Tidy) (hf : f.id = fileId f.path) : s.persistFile f {} =
    if (s.lastAction : Int) < lastNumber then .ok (s.commit f) else .error .storage :=
  persistFile_of_commitFile h.whole h.numbered (commitFile_of_filed h.filed hf) {}

/-- A store stays tidy when a file is committed under the identifier of its path. -/
theorem commit (h : s.Tidy) (hf : f.id = fileId f.path) : (s.commit f).Tidy where
  whole := ⟨h.whole.missing, h.whole.writable, h.whole.rooms⟩
  filed r hr := by
    rcases (commitFile_eq_ok (commitFile_of_filed h.filed hf)).2.2 r hr with ⟨old, hold, id, path⟩ | rfl
    · rw [id, path]
      exact h.filed old hold
    · exact hf
  numbered := h.numbered.recorded _ f.id _

/-- What a tidy store makes of such a commit is known as a whole. -/
theorem of_persistFile (h : s.Tidy) (hf : f.id = fileId f.path)
    (ok : s.persistFile f {} = .ok s') : s' = s.commit f ∧ s'.Tidy := by
  rw [h.persistFile hf] at ok
  split at ok
  · cases ok
    exact ⟨rfl, h.commit hf⟩
  · cases ok

/-- A batch gives out no numbers of build actions. -/
theorem writeAll {g : Graph} (h : s.Tidy) (hf : ∀ f ∈ files, f.id = fileId f.path) :
    (Batch.writeAll { store := s } files g).store.Tidy := by
  have filed : (Batch.writeAll { store := s } files g).store.Filed :=
    Filed.writeAll (b := { store := s }) h.filed hf
  refine ⟨?_, filed, ?_⟩ <;> rw [Batch.store_writeAll]
  · exact ⟨h.whole.missing, h.whole.writable, h.whole.rooms⟩
  · exact ⟨h.numbered.actions, h.numbered.sources⟩

end Tidy

/-! ## Several files -/

/-- The build actions of files that are committed one after another. -/
def newActions (last : Nat) (files : List File) : List ActionRow :=
  (files.zipIdx (last + 1)).map fun (_, n) => ⟨n, ""⟩

/-- The pairs that link files to their build actions. -/
def newSources (last : Nat) (files : List File) : List SourceRow :=
  (files.zipIdx (last + 1)).map fun (f, n) => ⟨.ofId f.id, .integer n⟩

/-- **The store after several files**: each has left a build action and the pair that links them. -/
theorem store_commits (s : Store) (files : List File) : files.foldl commit s = { s with
    files := files.foldl putFile s.files
    actions := s.actions ++ newActions s.lastAction files
    sources := s.sources ++ newSources s.lastAction files
    lastAction := s.lastAction + files.length } := by
  induction files generalizing s with
  | nil => simp [newActions, newSources]
  | cons f files ih =>
    rw [List.foldl_cons, ih]
    simp only [commit, newActions, newSources, List.zipIdx_cons, List.map_cons, List.foldl_cons,
      List.append_assoc, List.singleton_append, List.length_cons, Nat.add_assoc, Nat.add_comm 1]

/-! ## Files that are committed once more -/

/-- A row keeps its identifier, and so its path below. -/
theorem restated_id (r : FileRow) (f : File) : (restated r f).id = r.id := by
  unfold restated
  split <;> rfl

theorem restated_path (r : FileRow) (f : File) : (restated r f).path = r.path := by
  unfold restated
  split <;> rfl

/-- However many files are committed, a row changes in nothing but its status. -/
theorem foldl_restated (files : List File) (r : FileRow) :
    ∃ status, files.foldl restated r = { r with status } := by
  induction files generalizing r with
  | nil => exact ⟨r.status, rfl⟩
  | cons f files ih =>
    obtain ⟨status, same⟩ := ih (restated r f)
    refine ⟨status, ?_⟩
    rw [List.foldl_cons, same]
    unfold restated
    split <;> rfl

/-- A row that no file names stays as it is. -/
theorem foldl_restated_of_absent (absent : ∀ f ∈ files, r.id ≠ f.id) :
    files.foldl restated r = r := by
  induction files with
  | nil => rfl
  | cons f files ih =>
    rw [List.foldl_cons, restated, if_neg (absent f List.mem_cons_self)]
    exact ih fun g hg => absent g (List.mem_cons_of_mem f hg)

/-- A known file brings no row. -/
theorem putFile_of_known (known : ∃ r ∈ rows, r.id = f.id) :
    putFile rows f = rows.map (restated · f) := by
  obtain ⟨r, hr, same⟩ := known
  unfold putFile
  rw [if_pos (List.any_eq_true.mpr ⟨r, hr, decide_eq_true same⟩)]

/-- No file gets lost, and the committed one is there. -/
theorem mem_ids_putFile {id : FileId} (h : (∃ r ∈ rows, r.id = id) ∨ f.id = id) :
    ∃ r ∈ putFile rows f, r.id = id := by
  unfold putFile
  split
  · rename_i known
    have there : ∃ r ∈ rows, r.id = id := by
      rcases h with there | rfl
      · exact there
      · obtain ⟨r, hr, same⟩ := List.any_eq_true.mp known
        exact ⟨r, hr, of_decide_eq_true same⟩
    obtain ⟨r, hr, rfl⟩ := there
    exact ⟨_, List.mem_map.mpr ⟨r, hr, rfl⟩, restated_id r f⟩
  · rcases h with ⟨r, hr, rfl⟩ | rfl
    · exact ⟨r, List.mem_append_left _ hr, rfl⟩
    · exact ⟨_, List.mem_append_right _ (List.mem_singleton.mpr rfl), rfl⟩

/-- Nor does any of several, and each of them is there afterwards. -/
theorem mem_ids_putFiles {id : FileId} (h : (∃ r ∈ rows, r.id = id) ∨ ∃ f ∈ files, f.id = id) :
    ∃ r ∈ files.foldl putFile rows, r.id = id := by
  induction files generalizing rows with
  | nil => exact h.elim (fun there => there) fun ⟨_, hf, _⟩ => nomatch hf
  | cons f files ih =>
    refine ih ?_
    rcases h with there | ⟨g, hg, same⟩
    · exact Or.inl (mem_ids_putFile (Or.inl there))
    · rcases List.mem_cons.mp hg with rfl | later
      · exact Or.inl (mem_ids_putFile (Or.inr same))
      · exact Or.inr ⟨g, later, same⟩

/-! ## The row of a path -/

/-- The last of some files that has a path. -/
def latest (files : List File) (path : String) : Option File :=
  files.reverse.find? fun f => f.path = path

/-- The last file of a path is the one that came last. -/
theorem latest_concat (files : List File) (f : File) (path : String) :
    latest (files ++ [f]) path = if f.path = path then some f else latest files path := by
  unfold latest
  rw [List.reverse_concat, List.find?_cons]
  by_cases own : f.path = path <;> simp only [own, decide_true, decide_false, if_true, if_false]

/-- It is one of the files, and has the path. -/
theorem of_latest_eq_some {path : String} (found : latest files path = some f) :
    f ∈ files ∧ f.path = path := by
  unfold latest at found
  exact ⟨List.mem_reverse.mp (List.mem_of_find?_eq_some found), by simpa using List.find?_some found⟩

/-- A commit replaces the row of its path, if it has one, and adds it if not. -/
theorem filter_putFile (own : ∀ r ∈ rows, r.id = f.id ↔ r.path = f.path)
    (single : (rows.filter fun r => r.path = f.path).length ≤ 1) (path : String) :
    (putFile rows f).filter (fun r => r.path = path) =
      if f.path = path then [.ofFile f] else rows.filter fun r => r.path = path := by
  by_cases known : ∃ r ∈ rows, r.id = f.id
  · have mapped : (rows.map (restated · f)).filter (fun r => r.path = path) =
        (rows.filter fun r => r.path = path).map (restated · f) := by
      rw [List.filter_map]
      congr 1
      refine List.filter_congr fun r _ => ?_
      show decide ((restated r f).path = path) = _
      rw [restated_path]
    rw [putFile_of_known known, mapped]
    split
    · rename_i same
      subst same
      obtain ⟨r, hr, id⟩ := known
      have there : r ∈ rows.filter fun r => r.path = f.path :=
        List.mem_filter.mpr ⟨hr, decide_eq_true ((own r hr).mp id)⟩
      obtain ⟨only, rows_eq⟩ := List.length_eq_one_iff.mp (Nat.le_antisymm single (List.length_pos_of_mem there))
      rw [rows_eq] at there ⊢
      rw [← List.mem_singleton.mp there, List.map_singleton, restated, if_pos id]
      unfold FileRow.ofFile
      rw [← id, ← (own r hr).mp id]
    · rename_i other
      refine (List.map_congr_left fun r hr => ?_).trans (List.map_id' _)
      obtain ⟨hr, hpath⟩ := List.mem_filter.mp hr
      refine if_neg fun id => other ?_
      exact ((own r hr).mp id).symm.trans (of_decide_eq_true hpath)
  · have free : ¬ (rows.any fun r => r.id = f.id) = true := fun any =>
      have ⟨r, hr, same⟩ := List.any_eq_true.mp any
      known ⟨r, hr, of_decide_eq_true same⟩
    unfold putFile
    rw [if_neg free, List.filter_append, List.filter_singleton]
    show _ ++ (bif decide (f.path = path) then [FileRow.ofFile f] else []) = _
    split
    · rename_i same
      have none : (rows.filter fun r => r.path = path) = [] := by
        refine List.filter_eq_nil_iff.mpr fun r hr hpath => known ⟨r, hr, ?_⟩
        exact (own r hr).mpr ((of_decide_eq_true hpath).trans same.symm)
      rw [none, decide_eq_true same]
      rfl
    · rename_i other
      rw [decide_eq_false other]
      exact List.append_nil _

/-- **One row for each path that was committed**, with the status of the last file under it. -/
theorem filter_putFiles (apart : ∀ f ∈ files, ∀ g ∈ files, f.id = g.id ↔ f.path = g.path) (path : String) :
    (files.foldl putFile []).filter (fun r => r.path = path) =
      (latest files path).toList.map FileRow.ofFile := by
  induction files using List.reverseRecOn generalizing path with
  | nil => rfl
  | append_singleton before f ih =>
    have ih : ∀ path, _ := ih fun a ha b hb =>
      apart a (List.mem_append_left _ ha) b (List.mem_append_left _ hb)
    rw [List.foldl_append, List.foldl_cons, List.foldl_nil]
    generalize rows_eq : before.foldl putFile [] = rows
    rw [filter_putFile, latest_concat]
    · split
      · rfl
      · exact rows_eq ▸ ih path
    · intro r hr
      -- the row is that of a file from before
      have own : r ∈ rows.filter fun other => other.path = r.path :=
        List.mem_filter.mpr ⟨hr, decide_eq_true rfl⟩
      rw [← rows_eq, ih r.path] at own
      obtain ⟨g, hg, rfl⟩ := List.mem_map.mp own
      exact apart g (List.mem_append_left _ (of_latest_eq_some (Option.mem_toList.mp hg)).1) f
        (List.mem_append_right _ (List.mem_singleton.mpr rfl))
    · rw [← rows_eq, ih, List.length_map]
      cases latest before f.path with
      | none => exact Nat.zero_le 1
      | some _ => exact Nat.le_refl 1

/-- Every row is that of a file that was committed. -/
theorem mem_putFiles (apart : ∀ f ∈ files, ∀ g ∈ files, f.id = g.id ↔ f.path = g.path)
    (hr : r ∈ files.foldl putFile []) : ∃ f ∈ files, r = .ofFile f := by
  have own : r ∈ (files.foldl putFile []).filter fun other => other.path = r.path :=
    List.mem_filter.mpr ⟨hr, decide_eq_true rfl⟩
  rw [filter_putFiles apart r.path] at own
  obtain ⟨f, hf, rfl⟩ := List.mem_map.mp own
  exact ⟨f, (of_latest_eq_some (Option.mem_toList.mp hf)).1, rfl⟩

/-! ## Files that are committed again -/

/-- Every row has the status that one of the files was committed with last, if any was. -/
def Settled (files : List File) (rows : List FileRow) : Prop :=
  ∀ r ∈ rows, files.foldl restated r = r

/-- A commit settles its own row and leaves the others settled. -/
theorem settled_putFile (h : Settled files rows) (f : File) :
    Settled (files ++ [f]) (putFile rows f) := by
  -- whatever the files before made of the row, the last one sets its status
  have own : ∀ r : FileRow, r.id = f.id → r.status = Vocabulary.word f.status →
      (files ++ [f]).foldl restated r = r := by
    intro r id same
    obtain ⟨status, before⟩ := foldl_restated files r
    rw [List.foldl_append, before, List.foldl_cons, List.foldl_nil, restated, if_pos id, ← same]
  have other : ∀ r ∈ rows, r.id ≠ f.id → (files ++ [f]).foldl restated r = r := by
    intro r hr differ
    rw [List.foldl_append, h r hr, List.foldl_cons, List.foldl_nil, restated, if_neg differ]
  intro r hr
  unfold putFile at hr
  split at hr
  · obtain ⟨old, hold, rfl⟩ := List.mem_map.mp hr
    unfold restated
    split
    · rename_i same
      exact own _ same rfl
    · rename_i differ
      exact other old hold differ
  · rename_i free
    rcases List.mem_append.mp hr with old | new
    · refine other r old fun same => free ?_
      exact List.any_eq_true.mpr ⟨r, old, decide_eq_true same⟩
    · rw [List.mem_singleton.mp new]
      exact own _ rfl rfl

/-- Rows that show what was committed last go on to do so when more is committed. -/
theorem settled_putFiles (before : List File) (h : Settled before rows) :
    Settled (before ++ files) (files.foldl putFile rows) := by
  induction files generalizing before rows with
  | nil =>
    rw [List.append_nil]
    exact h
  | cons f files ih =>
    have first := ih (before ++ [f]) (settled_putFile h f)
    rwa [List.append_assoc] at first

/-- **Committing files again changes no row**, if they are all there and every row is settled. -/
theorem putFiles_of_settled (known : ∀ f ∈ files, ∃ r ∈ rows, r.id = f.id)
    (h : Settled files rows) : files.foldl putFile rows = rows := by
  -- each commit meets a known identifier, so the rows are mapped along
  have mapped : ∀ rows : List FileRow, (∀ f ∈ files, ∃ r ∈ rows, r.id = f.id) →
      files.foldl putFile rows = rows.map (files.foldl restated ·) := by
    clear known h
    induction files with
    | nil => exact fun rows _ => (List.map_id' rows).symm
    | cons f files ih =>
      intro rows known
      rw [List.foldl_cons, ih, putFile_of_known (known f List.mem_cons_self), List.map_map]
      · rfl
      · exact fun g hg => mem_ids_putFile (Or.inl (known g (List.mem_cons_of_mem f hg)))
  rw [mapped rows known]
  exact (List.map_congr_left h).trans (List.map_id' rows)

/-- A file that is committed twice in a row leaves what one commit leaves. -/
theorem putFile_again (rows : List FileRow) (f : File) : putFile (putFile rows f) f = putFile rows f := by
  have none : Settled [] rows := fun _ _ => rfl
  have settled : Settled [f] (putFile rows f) := settled_putFile none f
  show [f].foldl putFile (putFile rows f) = putFile rows f
  refine putFiles_of_settled (fun g hg => ?_) settled
  rw [List.mem_singleton.mp hg]
  exact mem_ids_putFile (Or.inr rfl)

end SymbolIndex.Store
