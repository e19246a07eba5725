import SymbolIndex.Proofs.Session.Within
import SymbolIndex.Proofs.Store.Intact

/-!
# `Proofs.Session.Files` — the files of a store that one session has written

Until its batch a session writes nothing but files, so on a store that was empty at its beginning the
announced files are in the store and no others, each as the session knows it (`Kept`). This needs that
paths have distinct identifiers: a file that is committed under the identifier of another path would
only move the status of that one.

## Contents
- `Kept`, with one lemma for each way in which a session changes; `Kept.run`.
-/

namespace SymbolIndex

open Store

namespace Session

variable {s s' : Session Store} {ids : List Identity}

/-- The store of a session holds the announced files as the session knows them, and build actions. -/
structure Kept (s : Session Store) : Prop where
  store : ∃ files actions sources lastAction,
    s.store = ({ files, actions, sources, lastAction } : Store)
  sources : s.sources.Keyed
  announced : ∀ id, s.sources.isAnnounced id = true → s.sources.Knows id
  rows : ∀ r, r ∈ s.store.files ↔
    ∃ path f, s.sources.find? path = some f ∧ s.sources.isAnnounced f.id = true ∧ r = FileRow.ofFile f
  distinct : (s.store.files.map FileRow.path).Nodup

namespace Kept

theorem begin (options : Options) : Kept (begin Store.empty options) where
  store := ⟨[], [], [], 0, rfl⟩
  sources := SourceTable.keyed_empty
  announced _ h := nomatch h
  rows _ := ⟨fun h => (nomatch h), fun ⟨_, _, found, _⟩ => (nomatch found)⟩
  distinct := List.nodup_nil

/-- Paths that become known are not announced by that. -/
theorem registered {t : SourceTable} {paths : List String} (h : Kept s)
    (within : Within (· ∈ ids) s) (apart : Apart .file ids) (hpaths : ∀ path ∈ paths, .file path ∈ ids)
    (ht : t = s.sources.registerAll paths) : Kept { s with sources := t } := by
  subst ht
  refine ⟨h.store, h.sources.registerAll paths, ?_, ?_, h.distinct⟩
  · intro id announced
    rw [SourceTable.isAnnounced_registerAll] at announced
    exact (h.announced id announced).registerAll paths
  · intro r
    rw [h.rows r]
    constructor
    · rintro ⟨path, f, found, announced, rfl⟩
      exact ⟨path, f, SourceTable.find?_registerAll_of_find? found paths,
        (SourceTable.isAnnounced_registerAll _ _ _).trans announced, rfl⟩
    · rintro ⟨path, f, found, announced, rfl⟩
      have announced' : s.sources.isAnnounced f.id = true :=
        (SourceTable.isAnnounced_registerAll _ _ _).symm.trans announced
      rcases SourceTable.known_or_made_of_registerAll found with known | ⟨hpath, rfl⟩
      · exact ⟨path, f, known, announced', rfl⟩
      · -- a new file whose identifier is announced would share it with a known one
        obtain ⟨other, f, known, same⟩ := h.announced _ announced'
        have samePath : other = path := by
          refine apart.path_eq (within.files other f known) (hpaths path hpath) ?_
          rw [← (h.sources other f known).2, same]
          rfl
        subst samePath
        have still := SourceTable.find?_registerAll_of_find? known paths
        have new : f = File.make other := Option.some.inj (still.symm.trans found)
        exact ⟨other, f, known, new ▸ announced', new ▸ rfl⟩

theorem effect {paths : List String} {xs : List Sighting} {g : Graph} (h : Kept s)
    (done : Effect s s' paths xs g) (within : Within (· ∈ ids) s) (apart : Apart .file ids)
    (hpaths : ∀ path ∈ paths, .file path ∈ ids) : Kept s' := by
  obtain ⟨store, sources, announced, rows, distinct⟩ :=
    h.registered within apart hpaths done.sources
  refine ⟨?_, sources, announced, ?_, ?_⟩
  · rw [done.store]
    exact store
  · rw [done.store]
    exact rows
  · rw [done.store]
    exact distinct

section Announce

variable {told : Session Store} {store : Store} {f : File} (h : Kept told)
  (within : Within (· ∈ ids) told) (apart : Apart .file ids) (hf : f.id = fileId f.path)
  (named : .file f.path ∈ ids)
include h hf

/-- A committed file is known as it was committed. -/
theorem find?_announce (path : String) : (told.announce store f).sources.find? path =
    if f.path = path then some f else told.sources.find? path := by
  show ((told.sources.setStatus f.path f.status).announce f.id).find? path = _
  rw [SourceTable.find?_announce, SourceTable.find?_setStatus, h.sources.get_with_status hf]

include within apart named

/-- A known file with the identifier of the committed one is known under its path. -/
theorem path_of_id {path : String} {g : File} (found : told.sources.find? path = some g)
    (same : g.id = f.id) : path = f.path := by
  refine apart.path_eq (within.files path g found) named ?_
  rw [← (h.sources path g found).2, same, hf]

/-- The rows after a file is committed: it is there, and the others are as they were. -/
theorem mem_files_announce {rows : List FileRow} (committed : commitFile told.store.files f = .ok rows)
    (r : FileRow) : r ∈ rows ↔ ∃ path g, (told.announce store f).sources.find? path = some g ∧
      (told.announce store f).sources.isAnnounced g.id = true ∧ r = FileRow.ofFile g := by
  have isAnnounced : ∀ id, (told.announce store f).sources.isAnnounced id = true ↔
      id = f.id ∨ told.sources.isAnnounced id = true :=
    fun id => SourceTable.isAnnounced_announce (told.sources.setStatus f.path f.status) f.id id
  have replaced : r ∈ rows ↔ r = FileRow.ofFile f ∨ r ∈ told.store.files ∧ r.id ≠ f.id := by
    refine mem_commitFile committed fun r hr sameId => ?_
    obtain ⟨path, g, found, _, rfl⟩ := (h.rows r).mp hr
    exact (h.sources path g found).1.trans (h.path_of_id within apart hf named found sameId)
  rw [replaced, h.rows]
  constructor
  · rintro (rfl | ⟨⟨path, g, found, announced, rfl⟩, other⟩)
    · exact ⟨f.path, f, by rw [h.find?_announce hf, if_pos rfl], (isAnnounced f.id).mpr (Or.inl rfl), rfl⟩
    · have otherPath : f.path ≠ path := by
        rintro rfl
        exact other ((h.sources _ g found).2.trans hf.symm)
      exact ⟨path, g, by rw [h.find?_announce hf, if_neg otherPath, found],
        (isAnnounced g.id).mpr (Or.inr announced), rfl⟩
  · rintro ⟨path, g, found, announced, rfl⟩
    rw [h.find?_announce hf] at found
    split at found
    · exact Or.inl (congrArg FileRow.ofFile (Option.some.inj found).symm)
    · rename_i otherPath
      have other : g.id ≠ f.id :=
        fun sameId => otherPath (h.path_of_id within apart hf named found sameId).symm
      have before := ((isAnnounced g.id).mp announced).resolve_left other
      exact Or.inr ⟨⟨path, g, found, before, rfl⟩, other⟩

/-- **Committing a file puts it into the store as the session knows it from then on.** -/
theorem announce (ok : told.store.persistFile f {} = .ok store) : Kept (told.announce store f) := by
  obtain ⟨files, actions, sources, lastAction, committed, same⟩ := persistFile_eq_ok ok
  obtain ⟨_, _, _, _, only⟩ := h.store
  refine ⟨⟨files, actions, sources, lastAction, ?_⟩, ?_, ?_, ?_, ?_⟩
  · show store = _
    rw [same, only]
  · exact (h.sources.setStatus f.path f.status).announce f.id
  · intro id announced
    rcases (SourceTable.isAnnounced_announce _ f.id id).mp announced with rfl | before
    · exact ⟨f.path, f, by rw [h.find?_announce hf, if_pos rfl], rfl⟩
    · exact ((h.announced id before).setStatus f.path f.status).announce f.id
  · intro r
    show r ∈ store.files ↔ _
    rw [same]
    exact h.mem_files_announce within apart hf named committed r
  · show (store.files.map FileRow.path).Nodup
    rw [same]
    exact nodup_path_commitFile committed h.distinct

end Announce

theorem quiet (h : Kept s) (done : Effect s s' [] [] {}) (within : Within (· ∈ ids) s)
    (apart : Apart .file ids) : Kept s' :=
  h.effect done within apart fun _ hpath => nomatch hpath

theorem enter (h : Kept s) {d : Declaration} {t : SymbolTable} (within : Within (· ∈ ids) s)
    (apart : Apart .file ids) (named : .file d.path ∈ ids) : Kept (s.enter d t) := by
  have paths : ∀ path ∈ [d.path], .file path ∈ ids := by simpa using named
  obtain ⟨store, sources, announced, rows, distinct⟩ := h.registered within apart paths rfl
  exact ⟨store, sources, announced, rows, distinct⟩

variable {e : Event}

theorem accepted (h : Kept s) (within : Within (· ∈ ids) s) (apart : Apart .file ids)
    (ok : Accepted s s' e) (hp : ∀ i ∈ identities e, i ∈ ids) : Kept s' := by
  have seen : ∀ t, ∀ path ∈ (reported t e).map Sighting.path, .file path ∈ ids := by
    intro t path hpath
    obtain ⟨x, hx, rfl⟩ := List.mem_map.mp hpath
    exact hp _ (mem_identities_reported hx).2.1
  cases ok with
  | @committed r path code told store hpath quiet ok done =>
    rw [done]
    have named : .file path ∈ ids := hp _ (by simp [identities, hpath])
    exact (h.quiet quiet within apart).announce (within.quiet quiet) apart rfl named
      (quiet.store ▸ ok)
  | @declared _ d t hd ok done =>
    have named : ∀ i ∈ d.declaration.identities, i ∈ ids :=
      fun i hi => hp i (mem_identities_declared hd hi)
    have entered := h.enter (t := t) within apart (named _ List.mem_cons_self)
    exact entered.effect done (within.enter ok named) apart (seen t)
  | @completed r c owner t hc ok done =>
    have moved : Kept { s with symbols := t } := 
      ⟨h.store, h.sources, h.announced, h.rows, h.distinct⟩
    exact moved.effect done (within.resolved ok) apart (seen t)
  | @imported r path importer found done =>
    rw [done]
    let both (s : Session Store) : Prop := Within (· ∈ ids) s ∧ Kept s
    suffices both ((importEntries r).foldl (addImport importer.id) s) from this.2
    refine imports_induction ⟨within, h⟩
      (fun _ _ h quiet => ⟨h.1.quiet quiet, h.2.quiet quiet h.1 apart⟩) ?_
    intro entry hentry s s' h ok
    have named : ∀ i ∈ importIdentities entry, i ∈ ids :=
      fun i hi => hp i (mem_identities_imported hentry hi)
    refine ⟨h.1.imported ok named, ?_⟩
    obtain ⟨hpath, _, located, _, added⟩ := ok
    refine h.2.effect added h.1 apart fun other hother => ?_
    rw [List.mem_singleton.mp hother]
    exact named _ (mem_importIdentities hpath located).1

theorem invariant (apart : Apart .file ids) : Invariant (fun e => ∀ i ∈ identities e, i ∈ ids)
    fun s : Session Store => Within (· ∈ ids) s ∧ Kept s where
  quiet h done := ⟨h.1.quiet done, h.2.quiet done h.1 apart⟩
  accepted h hp ok := ⟨h.1.accepted ok hp, h.2.accepted h.1 apart ok hp⟩

/-- **Until its batch a session leaves nothing but the announced files in the store.** -/
theorem run (h : Kept s) (within : Within (· ∈ ids) s) (apart : Apart .file ids)
    {events : List Event} (hp : ∀ i ∈ events.flatMap identities, i ∈ ids) : Kept (s.run events) :=
  ((invariant apart).run ⟨within, h⟩ fun e he i hi =>
    hp i (List.mem_flatMap.mpr ⟨e, he, hi⟩)).2

end Kept

end Session

end SymbolIndex
