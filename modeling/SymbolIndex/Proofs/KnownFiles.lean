import Mathlib.Data.List.Induction
import SymbolIndex.Proofs.Keys
import SymbolIndex.Proofs.Source

/-!
# `Proofs.KnownFiles` — a file table as the calls that made it

A file table keeps two things apart: the files by path, and the identifiers that count as announced. Either
can come first, since an identifier is announced without asking whether a path with it is known. What the
table says of a path is nevertheless read off the calls that name the path and those that announce its
identifier, and nothing else in their order matters than which status was set last.

So the known paths split in two. Those whose identifier was announced are the ones that can import and be
imported, and the others are what a session writes when it ends.

## Contents
- `Call`, `after`: runs; `Call.paths`, `Call.lastStatus?`: what a run names and which status it sets last.
- `get_after`, `keys_after`, `isAnnounced_after`: the views of a file table after a run.
- `find?_after`, `keyed_after`: the known files after a run.
- `known_files_split_by_announcement`.
-/

namespace SymbolIndex.SourceTable

/-! ## Runs -/

/-- What can be asked of a file table that changes it. -/
inductive Call where
  | register (path : String)
  | setStatus (path : String) (status : ParseStatus)
  | announce (id : FileId)
  deriving DecidableEq

namespace Call

/-- The path that a call makes known. -/
def path? : Call → Option String
  | .register path => some path
  | .setStatus path _ => some path
  | .announce _ => none

/-- The status that a call sets for a path. -/
def statusOf? (path : String) : Call → Option ParseStatus
  | .setStatus other status => if other = path then some status else none
  | _ => none

/-- The paths that calls make known, each of them once. -/
def paths (calls : List Call) : List String :=
  (calls.filterMap path?).eraseDups

/-- The status that calls set last for a path, if they set one. -/
def lastStatus? (calls : List Call) (path : String) : Option ParseStatus :=
  (calls.filterMap (statusOf? path)).getLast?

/-- The file of a path with the status that calls leave it. -/
def file (calls : List Call) (path : String) : File :=
  ⟨fileId path, path, (lastStatus? calls path).getD .none⟩

end Call

/-- The file table after a call. -/
def call (t : SourceTable) : Call → SourceTable
  | .register path => t.register path
  | .setStatus path status => t.setStatus path status
  | .announce id => t.announce id

/-- The file table after calls that are made one after another. -/
def after (t : SourceTable) (calls : List Call) : SourceTable :=
  calls.foldl call t

variable {t : SourceTable} {calls : List Call} {path : String} {id : FileId} {f : File}

theorem after_concat (t : SourceTable) (calls : List Call) (c : Call) :
    t.after (calls ++ [c]) = (t.after calls).call c := by
  unfold after
  rw [List.foldl_append]
  rfl

/-! ## One call -/

/-- **A call changes nothing but a status** in what a path is got as. -/
theorem get_call (t : SourceTable) (c : Call) (path : String) : (t.call c).get path =
    { t.get path with status := (c.statusOf? path).getD (t.get path).status } := by
  cases c with
  | register other => exact get_register t other path
  | setStatus other status =>
    show (t.setStatus other status).get path = _
    rw [get_setStatus]
    by_cases same : other = path
    · rw [if_pos same, same]
      simp [Call.statusOf?]
    · rw [if_neg same]
      simp [Call.statusOf?, same]
  | announce id => exact get_announce t id path

theorem keys_call (t : SourceTable) (c : Call) : (t.call c).files.keys =
    match c.path? with
    | none => t.files.keys
    | some path => if path ∈ t.files.keys then t.files.keys else t.files.keys ++ [path] := by
  cases c with
  | register path => exact Dictionary.keys_put t.files path _
  | setStatus path status => exact Dictionary.keys_put t.files path _
  | announce id =>
    show (t.announce id).files.keys = t.files.keys
    rw [files_announce]

theorem isAnnounced_call (t : SourceTable) (c : Call) (id : FileId) :
    (t.call c).isAnnounced id = true ↔ c = .announce id ∨ t.isAnnounced id = true := by
  cases c with
  | register path =>
    show t.isAnnounced id = true ↔ _
    simp
  | setStatus path status =>
    show t.isAnnounced id = true ↔ _
    simp
  | announce other =>
    show (t.announce other).isAnnounced id = true ↔ _
    rw [isAnnounced_announce, Call.announce.injEq, eq_comm]

/-! ## The views after a run -/

theorem lastStatus?_concat (calls : List Call) (c : Call) (path : String) :
    Call.lastStatus? (calls ++ [c]) path = (c.statusOf? path).or (Call.lastStatus? calls path) := by
  unfold Call.lastStatus?
  rw [List.filterMap_append, List.getLast?_append]
  cases set : c.statusOf? path with
  | none => simp [set]
  | some status => simp [set]

/-- **What a path is got as** is told by its own calls, and by the last status among them. -/
theorem get_after (calls : List Call) (path : String) :
    (empty.after calls).get path = Call.file calls path := by
  induction calls using List.reverseRecOn with
  | nil => rfl
  | append_singleton calls c ih =>
    rw [after_concat, get_call, ih]
    unfold Call.file
    rw [lastStatus?_concat]
    cases c.statusOf? path with
    | none => rfl
    | some status => rfl

/-- **The known paths are those that calls have named.** -/
theorem keys_after (calls : List Call) : (empty.after calls).files.keys = Call.paths calls := by
  induction calls using List.reverseRecOn with
  | nil => rfl
  | append_singleton calls c ih =>
    rw [after_concat, keys_call, ih]
    unfold Call.paths
    rw [List.filterMap_append]
    cases named : c.path? with
    | none => simp [named]
    | some path =>
      have last : [c].filterMap Call.path? = [path] := by simp [named]
      rw [last, eraseDups_concat]
      simp only [List.mem_eraseDups]

/-- **The announced identifiers are those that calls have announced**, whatever is known. -/
theorem isAnnounced_after (calls : List Call) (id : FileId) :
    (empty.after calls).isAnnounced id = true ↔ .announce id ∈ calls := by
  induction calls using List.reverseRecOn with
  | nil => simp [after, empty, isAnnounced]
  | append_singleton calls c ih =>
    rw [after_concat, isAnnounced_call, ih, List.mem_append, List.mem_singleton, or_comm, eq_comm]

/-! ## The files after a run -/

/-- **The known files** are those of the named paths, each with the status that was set last. -/
theorem find?_after (calls : List Call) (path : String) : (empty.after calls).find? path =
    if path ∈ Call.paths calls then some (Call.file calls path) else none := by
  rw [find?_eq_get, keys_after, get_after]

theorem keyed_after (calls : List Call) : (empty.after calls).Keyed := by
  intro path f found
  rw [find?_after] at found
  split at found
  · obtain rfl := Option.some.inj found
    exact ⟨rfl, rfl⟩
  · cases found

/-- The order of calls leaves no trace in the files that are not announced, if it leaves the same status to be
set last. -/
theorem unannounced_after_perm {others : List Call} (same : calls.Perm others)
    (last : ∀ path ∈ Call.paths calls, Call.lastStatus? others path = Call.lastStatus? calls path) :
    (empty.after others).unannounced = (empty.after calls).unannounced := by
  have files (path : String) : (empty.after others).find? path = (empty.after calls).find? path := by
    have names : path ∈ Call.paths others ↔ path ∈ Call.paths calls := by
      unfold Call.paths
      rw [List.mem_eraseDups, List.mem_eraseDups]
      exact (same.filterMap Call.path?).mem_iff.symm
    rw [find?_after, find?_after]
    by_cases named : path ∈ Call.paths calls
    · rw [if_pos named, if_pos (names.mpr named)]
      unfold Call.file
      rw [last path named]
    · rw [if_neg named, if_neg (mt names.mp named)]
  have announced (id : FileId) :
      (empty.after others).isAnnounced id = (empty.after calls).isAnnounced id := by
    rw [Bool.eq_iff_iff, isAnnounced_after, isAnnounced_after]
    exact same.mem_iff.symm
  apply (keyed_after calls).eq_unannounced (keyed_after others).sorted_unannounced
  intro f
  rw [(keyed_after others).mem_unannounced_iff, files, announced]

/-- **The known files split by announcement.** Every known file stands under its own path, with the
identifier of that path and the status that was set last for it, if one was; making the path known before
or after does not matter. A known path is found as announced exactly if its identifier was announced, be it
before the path was known, and otherwise it is listed once among the files that are not announced. That list
has no other files, comes by strictly increasing path and does not depend on the order of the calls except
for the status that comes last; its length and the number of announced paths add up to the size. -/
theorem known_files_split_by_announcement (calls : List Call) :
    let t := empty.after calls
    (∀ path f, t.find? path = some f ↔ path ∈ Call.paths calls ∧
      f = ⟨fileId path, path, (Call.lastStatus? calls path).getD .none⟩) ∧
    (∀ path, t.findAnnounced? path = if .announce (fileId path) ∈ calls then t.find? path else none) ∧
    (∀ path ∈ Call.paths calls,
      (t.unannounced.map File.path).count path = if .announce (fileId path) ∈ calls then 0 else 1) ∧
    (∀ f, f ∈ t.unannounced ↔ t.find? f.path = some f ∧ .announce f.id ∉ calls) ∧
    (t.unannounced.map File.path).Pairwise (· < ·) ∧
    t.size = ((Call.paths calls).countP fun path => (t.findAnnounced? path).isSome) +
      t.unannounced.length ∧
    ∀ others, calls.Perm others →
      (∀ path ∈ Call.paths calls, Call.lastStatus? others path = Call.lastStatus? calls path) →
      (empty.after others).unannounced = t.unannounced := by
  intro t
  have keyed : t.Keyed := keyed_after calls
  have found (path : String) : t.find? path =
      if path ∈ Call.paths calls then some (Call.file calls path) else none := find?_after calls path
  have announced (id : FileId) : t.isAnnounced id = true ↔ .announce id ∈ calls :=
    isAnnounced_after calls id
  refine ⟨?_, ?_, ?_, ?_, keyed.sorted_unannounced, ?_, ?_⟩
  · intro path f
    rw [found, Option.ite_none_right_eq_some, Option.some.injEq, eq_comm (b := f)]
    rfl
  · intro path
    rw [keyed.findAnnounced?_eq]
    simp only [announced]
  · intro path named
    have known : t.find? path = some (Call.file calls path) := by
      rw [found, if_pos named]
    obtain ⟨_, id⟩ := keyed path _ known
    rw [keyed.count_unannounced known, id]
    simp only [announced]
  · intro f
    rw [keyed.mem_unannounced_iff, ← announced, Bool.not_eq_true]
  · rw [size_eq_announced_add_unannounced, keys_after]
  · intro others same last
    exact unannounced_after_perm same last

/-- An identifier that is announced before its path is known, a status that is replaced, and the same calls
in another order. -/
theorem announced_before_it_is_known :
    let calls : List Call := [.announce (fileId "/a.py"), .register "/c.py",
      .setStatus "/b.py" .fullyParsed, .register "/a.py", .setStatus "/b.py" .partiallyParsed, .register "/b.py"]
    let others : List Call := [.register "/b.py", .setStatus "/b.py" .fullyParsed,
      .setStatus "/b.py" .partiallyParsed, .register "/a.py", .announce (fileId "/a.py"), .register "/c.py"]
    "/a.py" ∈ Call.paths calls ∧ calls.Perm others ∧
      (∀ path ∈ Call.paths calls, Call.lastStatus? others path = Call.lastStatus? calls path) ∧
      (empty.after calls).find? "/b.py" = some ⟨fileId "/b.py", "/b.py", .partiallyParsed⟩ ∧
      (empty.after calls).findAnnounced? "/a.py" = some (File.make "/a.py") ∧
      ((empty.after calls).unannounced.map File.path).count "/a.py" = 0 ∧
      (empty.after others).unannounced =
        [⟨fileId "/b.py", "/b.py", .partiallyParsed⟩, File.make "/c.py"] := by
  intro calls others
  obtain ⟨files, announced, listed, _, _, _, reordered⟩ := known_files_split_by_announcement calls
  have same : calls.Perm others := by decide +kernel
  have last : ∀ path ∈ Call.paths calls, Call.lastStatus? others path = Call.lastStatus? calls path := by
    decide +kernel
  have marked : .announce (fileId "/a.py") ∈ calls := List.mem_cons_self
  have known : (empty.after calls).unannounced =
      [⟨fileId "/b.py", "/b.py", .partiallyParsed⟩, File.make "/c.py"] := by
    -- sorting does not compute, so the sorted list is the one that has the files and increases
    have free : ((empty.after calls).files.values.filter fun f => !(empty.after calls).isAnnounced f.id) =
        [File.make "/c.py", ⟨fileId "/b.py", "/b.py", .partiallyParsed⟩] := by
      decide +kernel
    symm
    apply (keyed_after calls).eq_unannounced
    · decide +kernel
    · intro f
      rw [← (keyed_after calls).mem_unannounced_iff]
      unfold unannounced
      rw [List.mem_mergeSort, free]
      simp [or_comm]
  refine ⟨by decide +kernel, same, last, ?_, ?_, ?_, ?_⟩
  · exact (files _ _).mpr ⟨by decide +kernel, rfl⟩
  · rw [announced, if_pos marked]
    exact (files _ _).mpr ⟨by decide +kernel, rfl⟩
  · rw [listed _ (by decide +kernel), if_pos marked]
  · rw [reordered others same last]
    exact known

end SymbolIndex.SourceTable
