import SymbolIndex.Proofs.Dictionary
import SymbolIndex.Source

/-!
# `Proofs.Source` — known files and announced files

A file table is read through `find?`, the file known under a path, and `isAnnounced`. Every file is
known under its own path and has the identifier of that path (`Keyed`), so an identifier is known
(`Knows`) exactly if some known path hashes to it. Nothing makes a file unknown again.

## Contents
- One equation for each operation on each view.
- `Keyed`, `Knows` and what keeps them.
- `mem_unannounced_iff`, `nodup_path_values`, `nodup_path_unannounced`; `Keyed.eq_unannounced`: the list of the
  files that are not announced is told by what it lists.
- `Keyed.count_unannounced`, `size_eq_announced_add_unannounced`: every known file is announced or listed.
-/

namespace SymbolIndex.SourceTable

variable {t : SourceTable} {path other : String} {id : FileId} {f : File}

/-- A path that is registered is known as the file that it was got as. -/
theorem find?_register (t : SourceTable) (path other : String) :
    (t.register path).find? other = if path = other then some (t.get path) else t.find? other :=
  Dictionary.find?_put t.files path other _

/-- A status is set on the file of its path, and on no other. -/
theorem find?_setStatus (t : SourceTable) (path other : String) (status : ParseStatus) :
    (t.setStatus path status).find? other =
      if path = other then some { t.get path with status } else t.find? other :=
  Dictionary.find?_put t.files path other _

@[simp] theorem files_announce (t : SourceTable) (id : FileId) : (t.announce id).files = t.files := by
  unfold announce
  split <;> rfl

@[simp] theorem find?_announce (t : SourceTable) (id : FileId) (other : String) :
    (t.announce id).find? other = t.find? other := by
  unfold find?
  rw [files_announce]

/-- A path is got as the file that it is registered as. -/
theorem get_register (t : SourceTable) (path other : String) :
    (t.register path).get other = t.get other := by
  unfold get
  rw [find?_register]
  split
  · rename_i same
    subst same
    rfl
  · rfl

/-- A status that is set is seen by whoever gets its path, and by nobody else. -/
theorem get_setStatus (t : SourceTable) (path other : String) (status : ParseStatus) :
    (t.setStatus path status).get other =
      if path = other then { t.get path with status } else t.get other := by
  unfold get
  rw [find?_setStatus]
  split <;> rfl

@[simp] theorem get_announce (t : SourceTable) (id : FileId) (other : String) :
    (t.announce id).get other = t.get other := by
  unfold get
  rw [find?_announce]

/-- An identifier is announced by being announced, and none is ever taken back. -/
theorem isAnnounced_announce (t : SourceTable) (id x : FileId) :
    (t.announce id).isAnnounced x = true ↔ x = id ∨ t.isAnnounced x = true := by
  unfold announce
  split
  · rename_i known
    exact ⟨Or.inr, fun h => h.elim (fun same => same ▸ known) fun h => h⟩
  · simp [isAnnounced]

/-- A file that is announced once more with the same status changes nothing. -/
theorem setStatus_announce_again (t : SourceTable) (path : String) (status : ParseStatus)
    (id : FileId) : (((t.setStatus path status).announce id).setStatus path status).announce id =
      (t.setStatus path status).announce id := by
  have announced : ((t.setStatus path status).announce id).isAnnounced id = true :=
    (isAnnounced_announce _ id id).mpr (Or.inl rfl)
  generalize told : (t.setStatus path status).announce id = u at announced
  have known : u.find? path = some { t.get path with status } := by
    rw [← told, find?_announce, find?_setStatus, if_pos rfl]
  have same : u.setStatus path status = u := by
    unfold setStatus get
    rw [known]
    exact congrArg (fun files => { u with files }) (Dictionary.put_of_find?_eq_some known)
  rw [same, announce, if_pos announced]

/-! ## Known files -/

/-- The known paths are known as the files that they are got as. -/
theorem find?_eq_get (t : SourceTable) (path : String) :
    t.find? path = if path ∈ t.files.keys then some (t.get path) else none := by
  by_cases known : path ∈ t.files.keys
  · rw [if_pos known]
    unfold get
    cases found : t.find? path with
    | none => exact absurd known (Dictionary.find?_eq_none_iff.mp found)
    | some f => rfl
  · rw [if_neg known]
    exact Dictionary.find?_eq_none_iff.mpr known

/-- Every file is known under its own path and has the identifier of that path. -/
def Keyed (t : SourceTable) : Prop :=
  ∀ path f, t.find? path = some f → f.path = path ∧ f.id = fileId path

theorem keyed_empty : Keyed {} := by
  intro path f h
  cases h

/-- What is got under a path has that path and its identifier, known or not. -/
theorem Keyed.get (h : t.Keyed) (path : String) :
    (t.get path).path = path ∧ (t.get path).id = fileId path := by
  unfold SourceTable.get
  cases found : t.find? path with
  | none => exact ⟨rfl, rfl⟩
  | some f => exact h path f found

/-- A file whose identifier is that of its path differs from the known one in nothing but its status. -/
theorem Keyed.get_with_status (h : t.Keyed) (hf : f.id = fileId f.path) :
    { t.get f.path with status := f.status } = f := by
  obtain ⟨path, id⟩ := h.get f.path
  rw [← hf] at id
  generalize t.get f.path = g at path id
  cases g
  cases f
  cases path
  cases id
  rfl

/-- A new file is made with the identifier of its path. -/
theorem Keyed.register (h : t.Keyed) (path : String) : (t.register path).Keyed := by
  intro other f found
  rw [find?_register] at found
  split at found
  · rename_i same
    cases found
    exact same ▸ h.get path
  · exact h other f found

/-- A status is set without a change to the path. -/
theorem Keyed.setStatus (h : t.Keyed) (path : String) (status : ParseStatus) :
    (t.setStatus path status).Keyed := by
  intro other f found
  rw [find?_setStatus] at found
  split at found
  · rename_i same
    cases found
    exact same ▸ h.get path
  · exact h other f found

theorem Keyed.announce (h : t.Keyed) (id : FileId) : (t.announce id).Keyed := by
  intro other f found
  rw [find?_announce] at found
  exact h other f found

/-- Some known file has the identifier. -/
def Knows (t : SourceTable) (id : FileId) : Prop :=
  ∃ path f, t.find? path = some f ∧ f.id = id

/-- A file that is known stays so when another becomes known. -/
theorem Knows.register (h : t.Knows id) (path : String) : (t.register path).Knows id := by
  obtain ⟨known, f, found, rfl⟩ := h
  by_cases same : path = known
  · refine ⟨path, t.get path, by rw [find?_register, if_pos rfl], ?_⟩
    unfold SourceTable.get
    rw [same, found]
    rfl
  · exact ⟨known, f, by rw [find?_register, if_neg same, found], rfl⟩

/-- It stays so under any status, since its identifier stays. -/
theorem Knows.setStatus (h : t.Knows id) (path : String) (status : ParseStatus) :
    (t.setStatus path status).Knows id := by
  obtain ⟨known, f, found, rfl⟩ := h
  -- a new status leaves the identifier, so the file that is replaced may stand for itself
  by_cases same : path = known
  · refine ⟨path, { t.get path with status }, by rw [find?_setStatus, if_pos rfl], ?_⟩
    show (t.get path).id = f.id
    unfold SourceTable.get
    rw [same, found]
    rfl
  · exact ⟨known, f, by rw [find?_setStatus, if_neg same, found], rfl⟩

theorem Knows.announce (h : t.Knows id) (other : FileId) : (t.announce other).Knows id := by
  obtain ⟨path, f, found, rfl⟩ := h
  exact ⟨path, f, by rw [find?_announce, found], rfl⟩

/-- A path that is registered makes its own identifier known. -/
theorem Keyed.knows_register (h : t.Keyed) (path : String) : (t.register path).Knows (fileId path) :=
  ⟨path, t.get path, by rw [find?_register, if_pos rfl], (h.get path).2⟩

/-- The table after several paths have become known. -/
def registerAll (t : SourceTable) (paths : List String) : SourceTable :=
  paths.foldl register t

theorem registerAll_append (t : SourceTable) (paths more : List String) :
    t.registerAll (paths ++ more) = (t.registerAll paths).registerAll more :=
  List.foldl_append

/-- Several paths become known as the files that they would be got as. -/
theorem find?_registerAll (t : SourceTable) (paths : List String) (path : String) :
    (t.registerAll paths).find? path = if path ∈ paths then some (t.get path) else t.find? path := by
  induction paths generalizing t with
  | nil => rfl
  | cons first paths ih =>
    show ((t.register first).registerAll paths).find? path = _
    rw [ih, get_register, find?_register]
    by_cases later : path ∈ paths
    · rw [if_pos later, if_pos (List.mem_cons_of_mem first later)]
    · rw [if_neg later]
      by_cases same : first = path
      · rw [if_pos same, if_pos (same ▸ List.mem_cons_self), same]
      · rw [if_neg same, if_neg fun there => (List.mem_cons.mp there).elim (Ne.symm same) later]

/-- A known file stays as it is when paths become known. -/
theorem find?_registerAll_of_find? (found : t.find? path = some f) (paths : List String) :
    (t.registerAll paths).find? path = some f := by
  rw [find?_registerAll]
  unfold get
  rw [found]
  split <;> rfl

/-- A file that is known after several paths became known was known, or is new at one of them. -/
theorem known_or_made_of_registerAll {paths : List String}
    (found : (t.registerAll paths).find? path = some f) :
    t.find? path = some f ∨ path ∈ paths ∧ f = File.make path := by
  rw [find?_registerAll] at found
  split at found
  · rename_i there
    unfold get at found
    cases known : t.find? path with
    | none =>
      rw [known] at found
      exact Or.inr ⟨there, (Option.some.inj found).symm⟩
    | some old =>
      rw [known] at found
      exact Or.inl found
  · exact Or.inl found

/-- Getting a path does not tell whether it is known. -/
theorem get_registerAll (t : SourceTable) (paths : List String) (path : String) :
    (t.registerAll paths).get path = t.get path := by
  induction paths generalizing t with
  | nil => rfl
  | cons first paths ih => exact (ih (t.register first)).trans (get_register t first path)

/-- Paths become known without being announced. -/
@[simp] theorem isAnnounced_registerAll (t : SourceTable) (paths : List String) (id : FileId) :
    (t.registerAll paths).isAnnounced id = t.isAnnounced id := by
  induction paths generalizing t with
  | nil => rfl
  | cons path paths ih => exact ih (t.register path)

theorem announced_registerAll (t : SourceTable) (paths : List String) :
    (t.registerAll paths).announced = t.announced := by
  induction paths generalizing t with
  | nil => rfl
  | cons path paths ih => exact ih (t.register path)

theorem Keyed.registerAll (h : t.Keyed) (paths : List String) : (t.registerAll paths).Keyed := by
  induction paths generalizing t with
  | nil => exact h
  | cons path paths ih => exact ih (h.register path)

theorem Knows.registerAll (h : t.Knows id) (paths : List String) : (t.registerAll paths).Knows id := by
  induction paths generalizing t with
  | nil => exact h
  | cons path paths ih => exact ih (h.register path)

/-- Each of several paths is known after they all became known. -/
theorem Keyed.knows_registerAll (h : t.Keyed) {paths : List String} (hp : path ∈ paths) :
    (t.registerAll paths).Knows (fileId path) := by
  induction paths generalizing t with
  | nil => cases hp
  | cons first paths ih =>
    rcases List.mem_cons.mp hp with rfl | later
    · exact Knows.registerAll (h.knows_register path) paths
    · exact ih (h.register first) later

/-! ## The order in which files become known -/

/-- Two file tables know the same files under the same paths and have announced the same. -/
structure Same (t u : SourceTable) : Prop where
  files : ∀ path, t.find? path = u.find? path
  announced : t.announced = u.announced

theorem Same.refl (t : SourceTable) : Same t t := ⟨fun _ => rfl, rfl⟩

/-- Paths become known in any order. -/
theorem registerAll_comm (t : SourceTable) (paths more : List String) :
    Same ((t.registerAll paths).registerAll more) ((t.registerAll more).registerAll paths) where
  files path := by
    rw [← registerAll_append, ← registerAll_append, find?_registerAll, find?_registerAll]
    simp only [List.mem_append, or_comm]
  announced := by simp only [announced_registerAll]

/-- A file is announced before or after paths become known, its own among them or not. -/
theorem announce_registerAll_comm (t : SourceTable) (path : String) (status : ParseStatus) (id : FileId)
    (paths : List String) : Same (((t.setStatus path status).announce id).registerAll paths)
      (((t.registerAll paths).setStatus path status).announce id) where
  files other := by
    rw [find?_registerAll, get_announce, get_setStatus, find?_announce, find?_setStatus, find?_announce,
      find?_setStatus, get_registerAll, find?_registerAll]
    by_cases own : path = other <;> by_cases there : other ∈ paths <;>
      simp only [own, there, if_true, if_false]
  announced := by
    have list : ∀ u : SourceTable, (u.announce id).announced =
        if u.announced.contains id then u.announced else id :: u.announced := by
      intro u
      unfold announce isAnnounced
      split <;> rfl
    rw [announced_registerAll, list, list]
    show (if t.announced.contains id then t.announced else id :: t.announced) =
      if (t.registerAll paths).announced.contains id then (t.registerAll paths).announced
        else id :: (t.registerAll paths).announced
    rw [announced_registerAll]

/-! ## Files that are not announced -/

/-- Files that are not announced are known files, under whatever path. -/
theorem mem_unannounced_iff :
    f ∈ t.unannounced ↔ (∃ path, t.find? path = some f) ∧ t.isAnnounced f.id = false := by
  unfold unannounced
  rw [List.mem_mergeSort, List.mem_filter, Dictionary.mem_values_iff, Bool.not_eq_true']
  rfl

/-- Their own path is the one that they are known under. -/
theorem Keyed.mem_unannounced_iff (h : t.Keyed) :
    f ∈ t.unannounced ↔ t.find? f.path = some f ∧ t.isAnnounced f.id = false := by
  rw [SourceTable.mem_unannounced_iff]
  constructor
  · rintro ⟨⟨path, found⟩, free⟩
    obtain ⟨same, _⟩ := h path f found
    exact ⟨same ▸ found, free⟩
  · rintro ⟨found, free⟩
    exact ⟨⟨f.path, found⟩, free⟩

theorem Keyed.id_of_mem_unannounced (h : t.Keyed) (hf : f ∈ t.unannounced) : f.id = fileId f.path := by
  obtain ⟨found, _⟩ := h.mem_unannounced_iff.mp hf
  exact (h f.path f found).2

/-- Known files have distinct paths. -/
theorem Keyed.nodup_path_values (h : t.Keyed) : (t.files.values.map File.path).Nodup := by
  have keys : t.files.values.map File.path = t.files.keys := by
    unfold Dictionary.values Dictionary.keys
    rw [List.map_map]
    refine List.map_congr_left fun pair hp => ?_
    exact (h pair.1 pair.2 (Dictionary.mem_pairs_iff.mp hp)).1
  exact keys ▸ t.files.nodup_keys

/-- No path comes twice among them. -/
theorem Keyed.nodup_path_unannounced (h : t.Keyed) : (t.unannounced.map File.path).Nodup := by
  refine ((List.mergeSort_perm _ _).map File.path).nodup_iff.mpr ?_
  exact h.nodup_path_values.sublist (List.filter_sublist.map _)

/-- Files that are not announced come by strictly increasing path. -/
theorem Keyed.sorted_unannounced (h : t.Keyed) : (t.unannounced.map File.path).Pairwise (· < ·) := by
  have sorted : t.unannounced.Pairwise fun a b => a.path ≤ b.path := by
    refine (List.pairwise_mergeSort ?_ ?_ _).imp of_decide_eq_true
    · intro a b c ab bc
      exact decide_eq_true (String.le_trans (of_decide_eq_true ab) (of_decide_eq_true bc))
    · intro a b
      simpa using String.le_total a.path b.path
  have strict := (List.pairwise_map.mpr sorted).and h.nodup_path_unannounced
  exact strict.imp fun ⟨le, differ⟩ => Std.lt_of_le_of_ne le differ

/-- A list of the files that are not announced is the one there is, if it comes by increasing path: it does
not matter in which order the files are gone through. -/
theorem Keyed.eq_unannounced (h : t.Keyed) {files : List File}
    (sorted : (files.map File.path).Pairwise (· < ·))
    (members : ∀ f, f ∈ files ↔ t.find? f.path = some f ∧ t.isAnnounced f.id = false) :
    files = t.unannounced := by
  have distinct : files.Nodup := by
    refine (List.pairwise_map.mp sorted).imp ?_
    rintro f g before rfl
    exact String.lt_irrefl _ before
  have perm : files.Perm t.unannounced := by
    apply (List.perm_ext_iff_of_nodup distinct h.nodup_path_unannounced.of_map).mpr
    intro f
    rw [members, h.mem_unannounced_iff]
  -- only one order of the files has their paths increase
  apply List.Perm.eq_of_pairwise _ (List.pairwise_map.mp sorted)
    (List.pairwise_map.mp h.sorted_unannounced) perm
  intro f g _ _ before after
  exact absurd after (String.lt_asymm before)

/-! ## Announced files and the others -/

/-- A path is found as announced if its identifier is announced, and then as the file that is known. -/
theorem Keyed.findAnnounced?_eq (h : t.Keyed) (path : String) :
    t.findAnnounced? path = if t.isAnnounced (fileId path) then t.find? path else none := by
  unfold findAnnounced?
  cases found : t.find? path with
  | none => simp
  | some f =>
    obtain ⟨_, id⟩ := h path f found
    rw [Option.filter_some, id]

/-- A known file is among those that are not announced once, or not at all if it is. -/
theorem Keyed.count_unannounced (h : t.Keyed) (found : t.find? path = some f) :
    (t.unannounced.map File.path).count path = if t.isAnnounced f.id then 0 else 1 := by
  by_cases announced : t.isAnnounced f.id = true
  · rw [if_pos announced]
    apply List.count_eq_zero_of_not_mem
    intro listed
    obtain ⟨g, hg, same⟩ := List.mem_map.mp listed
    obtain ⟨known, free⟩ := h.mem_unannounced_iff.mp hg
    -- the path is known as one file, and that one is announced
    rw [same, found] at known
    cases known
    rw [announced] at free
    cases free
  · rw [if_neg announced]
    apply List.count_eq_one_of_mem h.nodup_path_unannounced
    obtain ⟨same, _⟩ := h path f found
    refine List.mem_map.mpr ⟨f, h.mem_unannounced_iff.mpr ⟨?_, Bool.eq_false_iff.mpr announced⟩, same⟩
    rw [same]
    exact found

/-- **The known files are those that are announced and those that are not**, in numbers. -/
theorem size_eq_announced_add_unannounced (t : SourceTable) : t.size =
    (t.files.keys.countP fun path => (t.findAnnounced? path).isSome) + t.unannounced.length := by
  have others : t.unannounced.length =
      t.files.keys.countP fun path => !(t.findAnnounced? path).isSome := by
    unfold unannounced Dictionary.keys Dictionary.values
    rw [List.length_mergeSort, ← List.countP_eq_length_filter, List.countP_map, List.countP_map]
    apply List.countP_congr
    intro pair hp
    -- a path in the table is known as the file beside it
    have found : t.find? pair.1 = some pair.2 := Dictionary.mem_pairs_iff.mp hp
    show (!t.isAnnounced pair.2.id) = true ↔ (!(t.findAnnounced? pair.1).isSome) = true
    unfold findAnnounced?
    rw [found]
    simp [Option.isSome_filter]
  calc t.size = t.files.keys.length := t.files.size_eq_length_keys
    _ = _ := List.length_eq_countP_add_countP fun path => (t.findAnnounced? path).isSome
    _ = _ := by
      rw [others]
      simp only [decide_not, Bool.decide_eq_true]

end SymbolIndex.SourceTable
