import SymbolIndex.Proofs.Session.Announced
import SymbolIndex.Proofs.Session.Within
import SymbolIndex.Proofs.Store.Lossless

/-!
# `Proofs.Session.FileRecords` — files are those announced and those in use

A file gets its row in one of two ways. An event announces it, and then the row is committed at once, with
the status of the last such event; or a node that is buffered lies in it, and then the batch brings the
row, with no status. A session keeps the two apart by what it counts as announced.

That the batch brings no file without a node needs an invariant over everything that makes a path known
(`Located`). The one step that is not obvious is a declaration whose node is there already: its file is in
use because nodes with one identifier lie in one file. The converse, no node without a file, is part of
`Coherent`.

## Contents
- `Holds`, `Located`, kept by each step and by a run.
- `announcedAmong`; `isAnnounced_run`, `store_run`: what has been announced, and what is in the store.
- `file_records_follow_events`.
-/

namespace SymbolIndex

open Store

namespace Session

variable {σ : Type} {s s' : Session σ} {ids : List Identity} {id : FileId}

/-! ## Files in use -/

/-- Some node that is declared, imported or used lies in the file. -/
def Holds (s : Session σ) (id : FileId) : Prop :=
  ∃ n ∈ s.graph.nodes ++ s.ledger.nodes, n.location.file = id

/-- A known file has been announced, or it is as it was made and some node lies in it. -/
def Located (s : Session σ) : Prop :=
  ∀ path f, s.sources.find? path = some f →
    s.sources.isAnnounced f.id = true ∨ f = File.make path ∧ s.Holds (fileId path)

namespace Holds

theorem of_node {n : Node} (hn : n ∈ s.graph.nodes) : s.Holds n.location.file :=
  ⟨n, List.mem_append_left _ hn, rfl⟩

theorem of_usage (owner : EntityId) {location : Location}
    (hl : location ∈ (s.ledger.usages owner).map Node.location) : s.Holds location.file := by
  obtain ⟨n, hn, rfl⟩ := List.mem_map.mp hl
  exact ⟨n, List.mem_append_right _ (Ledger.mem_nodes_iff.mpr ⟨owner, hn⟩), rfl⟩

theorem effect {paths : List String} {xs : List Sighting} {g : Graph} (holds : s.Holds id)
    (done : Effect s s' paths xs g) : s'.Holds id := by
  obtain ⟨n, hn, rfl⟩ := holds
  rcases List.mem_append.mp hn with declared | used
  · refine of_node ?_
    rw [done.graph, Graph.nodes_append]
    exact List.mem_append_left _ declared
  · obtain ⟨owner, recorded⟩ := Ledger.mem_nodes_iff.mp used
    refine of_usage owner ?_
    rw [done.ledger, Ledger.locations_offer]
    exact Or.inl (List.mem_map.mpr ⟨n, recorded, rfl⟩)

/-- The file of a usage that is offered is in use, whether the usage is kept or its location is there. -/
theorem of_offered {paths : List String} {xs : List Sighting} {g : Graph} (done : Effect s s' paths xs g)
    {x : Sighting} (hx : x ∈ xs) : s'.Holds x.location.file := by
  refine of_usage x.owner.id ?_
  rw [done.ledger, Ledger.locations_offer]
  exact Or.inr ⟨x, hx, rfl, rfl⟩

end Holds

namespace Located

theorem begin (store : σ) (options : Options) : Located (begin store options) :=
  fun _ _ found => nomatch found

/-- Paths become known as files that nodes lie in. -/
theorem grow (paths : List String) (h : Located s) (sources : s'.sources = s.sources.registerAll paths)
    (kept : ∀ id, s.Holds id → s'.Holds id) (used : ∀ path ∈ paths, s'.Holds (fileId path)) :
    Located s' := by
  intro path f found
  rw [sources] at found ⊢
  rw [SourceTable.isAnnounced_registerAll]
  rcases SourceTable.known_or_made_of_registerAll found with known | ⟨hpath, made⟩
  · exact (h path f known).imp_right (And.imp_right (kept _))
  · exact Or.inr ⟨made, used path hpath⟩

theorem effect {paths : List String} {xs : List Sighting} {g : Graph} (h : Located s)
    (done : Effect s s' paths xs g) (used : ∀ path ∈ paths, s'.Holds (fileId path)) : Located s' :=
  h.grow paths done.sources (fun _ holds => holds.effect done) used

theorem quiet (h : Located s) (done : Effect s s' [] [] {}) : Located s' :=
  h.effect done fun _ hpath => nomatch hpath

theorem enter {d : Declaration} {t : SymbolTable} (h : Located s) (within : Within (· ∈ ids) s)
    (apart : Apart .node ids) (named : d.node.identity ∈ ids) (hfile : d.location.file = fileId d.path) :
    Located (s.enter d t) := by
  have nodes : (s.enter d t).graph.nodes =
      s.graph.nodes ++ if s.graph.hasNode d.node.id then [] else [d.node] := by
    show (s.graph.addNode d.node).1.nodes = _
    rw [Graph.addNode_fst, Graph.nodes_append]
  have ledger : ∀ n, n ∈ (s.enter d t).ledger.nodes ↔ n ∈ s.ledger.nodes :=
    Ledger.mem_nodes_register s.ledger d.entity.id
  have declared : (s.enter d t).Holds d.node.location.file := by
    cases there : s.graph.hasNode d.node.id with
    | false =>
      rw [there] at nodes
      exact .of_node (nodes ▸ List.mem_append_right _ (List.mem_singleton.mpr rfl))
    | true =>
      -- the node that is there has the identifier, so it lies in the same file
      obtain ⟨n, hn, same⟩ := List.mem_map.mp (Graph.hasNode_iff.mp there)
      obtain ⟨made, named'⟩ := within.nodes n hn
      have hash : n.identity.hash = d.node.identity.hash := by
        have ids : n.id = ⟨n.identity.hash⟩ := (id_of_eq_make made).1
        exact congrArg Id.val (ids.symm.trans same)
      rw [← (apart.node_eq named' named hash).2.2]
      exact .of_node (nodes ▸ List.mem_append_left _ hn)
  refine h.grow [d.path] rfl ?_ ?_
  · rintro id ⟨n, hn, rfl⟩
    refine ⟨n, ?_, rfl⟩
    rw [nodes, List.mem_append, ledger]
    exact (List.mem_append.mp hn).imp_left fun old => List.mem_append_left _ old
  · intro path hpath
    rw [List.mem_singleton.mp hpath, ← hfile]
    exact declared

/-- An announced file is announced, and the others are as they were. -/
theorem announce {store : σ} {file : File} (h : Located s) (keyed : s.sources.Keyed)
    (hf : file.id = fileId file.path) : Located (s.announce store file) := by
  intro path f found
  have known : ((s.sources.setStatus file.path file.status).announce file.id).find? path = some f := found
  have announced : (s.announce store file).sources.isAnnounced f.id = true ↔
      f.id = file.id ∨ s.sources.isAnnounced f.id = true :=
    SourceTable.isAnnounced_announce (s.sources.setStatus file.path file.status) file.id f.id
  rw [SourceTable.find?_announce, SourceTable.find?_setStatus] at known
  rw [announced]
  split at known
  · cases known
    exact Or.inl (Or.inl ((keyed.get file.path).2.trans hf.symm))
  · exact (h path f known).imp_left Or.inr

variable [Recorder σ] {e : Event}

theorem accepted (h : Located s) (within : Within (· ∈ ids) s) (apart : Apart .node ids)
    (keyed : s.sources.Keyed) (ok : Accepted s s' e) (hp : ∀ i ∈ identities e, i ∈ ids) : Located s' := by
  have used : ∀ {t : SymbolTable} {before after : Session σ} {g : Graph},
      Effect before after ((reported t e).map Sighting.path) (reported t e) g →
        ∀ path ∈ (reported t e).map Sighting.path, after.Holds (fileId path) := by
    intro t before after g done path hpath
    obtain ⟨x, hx, rfl⟩ := List.mem_map.mp hpath
    exact reported_file hx ▸ Holds.of_offered done hx
  cases ok with
  | @committed r path code told store hpath quiet ok done =>
    have keyed : told.sources.Keyed := by
      rw [quiet.sources]
      exact keyed.registerAll []
    rw [done]
    exact (h.quiet quiet).announce keyed rfl
  | @declared _ d t hd ok done =>
    have named : d.declaration.node.identity ∈ ids :=
      hp _ (mem_identities_declared hd (by simp [Declaration.identities]))
    exact (h.enter within apart named (declared?_file hd)).effect done (used done)
  | @completed r c owner t hc ok done =>
    have moved : Located { s with symbols := t } := h
    exact moved.effect done (used done)
  | @imported r path importer found done =>
    rw [done]
    refine imports_induction h (fun _ _ h quiet => h.quiet quiet) ?_
    rintro entry _ _ after h @⟨path, file, _, location, _, _, located, _, added⟩
    refine h.effect added fun other hother => ?_
    rw [List.mem_singleton.mp hother, ← Place.locate?_file located]
    refine Holds.of_node (n := importNode path (nonEmpty entry.symbol) location) ?_
    rw [added.graph, Graph.nodes_append]
    exact List.mem_append_right _ (List.mem_singleton.mpr rfl)

theorem invariant (apart : Apart .node ids) : Invariant (fun e => ∀ i ∈ identities e, i ∈ ids)
    fun s : Session σ => Within (· ∈ ids) s ∧ Coherent s.graph s ∧ Located s where
  quiet h done := ⟨h.1.quiet done, h.2.1.undisturbed done, h.2.2.quiet done⟩
  accepted h hp ok :=
    ⟨h.1.accepted ok hp, h.2.1.accepted ok, h.2.2.accepted h.1 apart h.2.1.sources ok hp⟩

/-- **Every known file is announced or in use.** -/
theorem run (apart : Apart .node ids) (store : σ) (options : Options) {events : List Event}
    (hp : ∀ i ∈ events.flatMap identities, i ∈ ids) : Located ((Session.begin store options).run events) :=
  ((invariant apart).run ⟨Within.begin store options, Coherent.begin store options, begin store options⟩
    fun e he i hi => hp i (List.mem_flatMap.mpr ⟨e, he, hi⟩)).2.2

end Located

/-! ## Files that are announced -/

/-- The files that the events of a run announce, as far as they are taken in. -/
def announcedAmong [Recorder σ] (s : Session σ) (events : List Event) : List File :=
  (s.acceptedAmong events).filterMap announced?

theorem announcedAmong_cons [Recorder σ] (s : Session σ) (e : Event) (events : List Event) :
    s.announcedAmong (e :: events) =
      (if s.refuses e then [] else (announced? e).toList) ++ (s.ingest e).announcedAmong events := by
  unfold announcedAmong
  rw [acceptedAmong]
  split
  · rfl
  · cases announced : announced? e with
    | none => rw [List.filterMap_cons_none announced]; rfl
    | some f => rw [List.filterMap_cons_some announced]; rfl

theorem id_of_mem_announcedAmong [Recorder σ] {s : Session σ} {events : List Event} {f : File}
    (hf : f ∈ s.announcedAmong events) : f.id = fileId f.path := by
  obtain ⟨_, _, announced⟩ := List.mem_filterMap.mp hf
  exact announced?_id announced

/-- The path of an announced file is one that the events name. -/
theorem named_of_mem_announcedAmong [Recorder σ] {s : Session σ} {events : List Event} {f : File}
    (hf : f ∈ s.announcedAmong events) : .file f.path ∈ events.flatMap identities := by
  induction events generalizing s with
  | nil => cases hf
  | cons e events ih =>
    rw [announcedAmong_cons, List.mem_append] at hf
    rw [List.flatMap_cons]
    rcases hf with own | later
    · refine List.mem_append_left _ ?_
      split at own
      · cases own
      · obtain ⟨r, path, code, rfl, hpath, _, rfl⟩ := announced?_eq_some_iff.mp (Option.mem_toList.mp own)
        show Identity.file path ∈ _
        simp [identities, hpath]
    · exact List.mem_append_right _ (ih later)

/-- **What counts as announced is what accepted events have announced.** -/
theorem isAnnounced_run [Recorder σ] {s : Session σ} (events : List Event) :
    (s.run events).sources.isAnnounced id = true ↔
      s.sources.isAnnounced id = true ∨ ∃ f ∈ s.announcedAmong events, f.id = id := by
  induction events generalizing s with
  | nil => simp [run, announcedAmong, acceptedAmong]
  | cons e events ih =>
    show ((s.ingest e).run events).sources.isAnnounced id = true ↔ _
    rw [ih, announcedAmong_cons]
    cases announced : announced? e with
    | none =>
      have none : (if s.refuses e then [] else (Option.none : Option File).toList) = [] := by
        split <;> rfl
      rw [(ingest_of_not_announced announced).2, none, List.nil_append]
    | some f =>
      rcases ingest_announced (s := s) announced with ⟨_, _, refused⟩ | ⟨_, _, taken, _, ingested⟩
      · obtain ⟨_, same⟩ := ingest_refused refused
        rw [if_pos refused, List.nil_append, same]
      · have after : (s.ingest e).sources.isAnnounced id = true ↔
            id = f.id ∨ s.sources.isAnnounced id = true := by
          rw [ingested]
          exact SourceTable.isAnnounced_announce _ f.id id
        rw [if_neg (Bool.eq_false_iff.mp taken), after]
        simp only [Option.toList_some, List.singleton_append, List.mem_cons, exists_eq_or_imp,
          eq_comm (a := id), or_assoc, or_left_comm]

/-- **Until its batch a session commits the files that accepted events announce**, in their turn, and does
nothing else to a store that only sessions have written. -/
theorem store_run {s : Session Restricted} (tidy : s.store.store.Tidy) (events : List Event) :
    (s.run events).store =
      { s.store with store := (s.announcedAmong events).foldl commit s.store.store } := by
  induction events generalizing s with
  | nil => rfl
  | cons e events ih =>
    show ((s.ingest e).run events).store = _
    rw [announcedAmong_cons]
    cases announced : announced? e with
    | none =>
      have same := store_ingest_of_not_announced (s := s) announced
      have none : (if s.refuses e then [] else (Option.none : Option File).toList) = [] := by
        split <;> rfl
      rw [ih (same ▸ tidy), same, none, List.nil_append]
    | some f =>
      rcases ingest_announced (s := s) announced with ⟨_, _, refused⟩ | ⟨store, ok, taken, _, ingested⟩
      · obtain ⟨_, same⟩ := ingest_refused refused
        rw [if_pos refused, List.nil_append, same]
        exact ih tidy
      · obtain ⟨same, tidy'⟩ := tidy.of_persistFile (announced?_id announced)
          (Restricted.persistFile_eq_ok ok)
        have after : (s.ingest e).store = { s.store with store := s.store.store.commit f } := by
          rw [ingested, ← same]
          exact (Restricted.of_persistFile ok).2
        rw [if_neg (Bool.eq_false_iff.mp taken), ih (after ▸ same ▸ tidy'), after]
        rfl

/-! ## Files that are not announced -/

/-- **The files that the batch brings** are those that nothing has announced and that some node lies in. -/
theorem mem_unannounced_run [Recorder σ] (store : σ) (options : Options) (events : List Event)
    (paths : Apart .file (events.flatMap identities)) (nodes : Apart .node (events.flatMap identities))
    (f : File) :
    let s := (begin store options).run events
    f ∈ s.sources.unannounced ↔ ∃ path, .file path ∈ events.flatMap identities ∧ f = File.make path ∧
      (∀ g ∈ (begin store options).announcedAmong events, g.path ≠ path) ∧ s.Holds (fileId path) := by
  intro s
  have within : Within (· ∈ events.flatMap identities) s :=
    (Within.begin store options).run fun _ hi => hi
  have coherent : Coherent s.graph s := (Coherent.begin store options).run events
  have located : Located s := Located.run nodes store options fun _ hi => hi
  have announced {id : FileId} : s.sources.isAnnounced id = true ↔
      ∃ g ∈ (begin store options).announcedAmong events, g.id = id :=
    (isAnnounced_run events).trans (or_iff_right nofun)
  -- no path shares its identifier with that of an announced file
  have others {path : String} (named : .file path ∈ events.flatMap identities) :
      s.sources.isAnnounced (fileId path) = false ↔
        ∀ g ∈ (begin store options).announcedAmong events, g.path ≠ path := by
    rw [Bool.eq_false_iff, ne_eq, announced]
    constructor
    · rintro none g hg rfl
      exact none ⟨g, hg, id_of_mem_announcedAmong hg⟩
    · rintro none ⟨g, hg, same⟩
      refine none g hg (paths.path_eq (named_of_mem_announcedAmong hg) named ?_)
      rw [← id_of_mem_announcedAmong hg, same]
  rw [SourceTable.mem_unannounced_iff]
  constructor
  · rintro ⟨⟨path, found⟩, free⟩
    rcases located path f found with told | ⟨rfl, holds⟩
    · rw [free] at told
      cases told
    · have named := within.files path _ found
      exact ⟨path, named, rfl, (others named).mp free, holds⟩
  · rintro ⟨path, named, rfl, free, n, hn, inFile⟩
    refine ⟨?_, (others named).mpr free⟩
    -- the node lies in a known file, and that is the file of the path
    have known : s.sources.Knows n.location.file := (List.mem_append.mp hn).elim
      (fun declared => coherent.points.nodes n (List.mem_append_left _ declared)) (coherent.usages n)
    obtain ⟨other, g, found, same⟩ := known
    obtain rfl : other = path := by
      refine paths.path_eq (within.files other g found) named ?_
      rw [← (coherent.sources other g found).2, same, inFile]
    rcases located other g found with told | ⟨rfl, _⟩
    · rw [(coherent.sources other g found).2, (others named).mpr free] at told
      cases told
    · exact ⟨other, found⟩

/-- Every node lies in a file that the events name. -/
theorem named_of_node [Recorder σ] (store : σ) (options : Options) (events : List Event) :
    let s := (begin store options).run events
    ∀ n ∈ s.graph.nodes ++ s.ledger.nodes,
      ∃ path, .file path ∈ events.flatMap identities ∧ n.location.file = fileId path := by
  intro s n hn
  have within : Within (· ∈ events.flatMap identities) s :=
    (Within.begin store options).run fun _ hi => hi
  have coherent : Coherent s.graph s := (Coherent.begin store options).run events
  have known : s.sources.Knows n.location.file := (List.mem_append.mp hn).elim
    (fun declared => coherent.points.nodes n (List.mem_append_left _ declared)) (coherent.usages n)
  obtain ⟨path, f, found, same⟩ := known
  exact ⟨path, within.files path f found, same.symm.trans (coherent.sources path f found).2⟩

/-! ## The records -/

section Distinct

variable [Recorder σ] {store : σ} {options : Options} {events : List Event}
  (paths : Apart .file (events.flatMap identities))

include paths

theorem apart_announcedAmong : ∀ f ∈ s.announcedAmong events, ∀ g ∈ s.announcedAmong events,
    f.id = g.id ↔ f.path = g.path := by
  intro f hf g hg
  rw [id_of_mem_announcedAmong hf, id_of_mem_announcedAmong hg]
  exact ⟨paths.path_eq (named_of_mem_announcedAmong hf) (named_of_mem_announcedAmong hg),
    fun same => congrArg fileId same⟩

variable (nodes : Apart .node (events.flatMap identities))

include nodes

/-- No row of an announced file has the path or the identifier of a file that is not announced. -/
theorem unannounced_new : ∀ f ∈ ((begin store options).run events).sources.unannounced,
    ∀ r ∈ ((begin store options).announcedAmong events).foldl putFile [], f.id ≠ r.id ∧ f.path ≠ r.path := by
  intro f hf r hr
  obtain ⟨path, named, rfl, free, _⟩ := (mem_unannounced_run store options events paths nodes f).mp hf
  obtain ⟨g, hg, rfl⟩ := mem_putFiles (apart_announcedAmong paths) hr
  have other : path ≠ g.path := fun same => free g hg same.symm
  refine ⟨fun same => other ?_, other⟩
  exact paths.path_eq named (named_of_mem_announcedAmong hg) (same.trans (id_of_mem_announcedAmong hg))

theorem unannounced_distinct : ((begin store options).run events).sources.unannounced.Pairwise
    fun f g => f.id ≠ g.id ∧ f.path ≠ g.path := by
  have coherent : Coherent ((begin store options).run events).graph ((begin store options).run events) :=
    (Coherent.begin store options).run events
  refine (List.pairwise_map.mp coherent.sources.nodup_path_unannounced).imp_of_mem ?_
  intro f g hf hg differ
  refine ⟨fun same => differ ?_, differ⟩
  obtain ⟨_, named, rfl, _⟩ := (mem_unannounced_run store options events paths nodes f).mp hf
  obtain ⟨_, named', rfl, _⟩ := (mem_unannounced_run store options events paths nodes g).mp hg
  exact paths.path_eq named named' same

end Distinct

/-- **File records follow the announcements and the locations in use.** Over a store that was empty, and
as long as the paths and the nodes that the events name have distinct identifiers: before the batch the
store has one file for each path that an accepted event announced, with the status of the last such
event, a build action with its link for each of these events, and nothing else. Files that are not
announced come by strictly increasing path, and are those of the paths that nobody announced and that a
declaration, an import or a usage lies in; no node lies elsewhere. A batch that is written leaves the rows
of files and adds one without a status for each of these paths, and one that fails leaves the store. -/
theorem file_records_follow_events (options : Options) (refusesFiles refusesBatches : Bool)
    (events : List Event) (paths : Apart .file (events.flatMap identities))
    (nodes : Apart .node (events.flatMap identities)) :
    let start := begin (⟨Store.empty, refusesFiles, refusesBatches⟩ : Restricted) options
    let s := start.run events
    let announced := start.announcedAmong events
    (∃ files, (∀ path, (files.filter fun r => r.path = path) =
        (latest announced path).toList.map FileRow.ofFile) ∧
      s.store.store = {
        files
        actions := newActions 0 announced
        sources := newSources 0 announced
        lastAction := announced.length }) ∧
    announced.length = ((start.acceptedAmong events).countP fun e => e.kind = .file) ∧
    (s.sources.unannounced.map File.path).Pairwise (· < ·) ∧
    (∀ f, f ∈ s.sources.unannounced ↔ ∃ path, .file path ∈ events.flatMap identities ∧
      f = File.make path ∧ (∀ g ∈ announced, g.path ≠ path) ∧ s.Holds (fileId path)) ∧
    (∀ n ∈ s.graph.nodes ++ s.ledger.nodes,
      ∃ path, .file path ∈ events.flatMap identities ∧ n.location.file = fileId path) ∧
    (refusesBatches = false → ∃ report, s.finalize.outcome = .ok report ∧
      s.finalize.store.store.files =
        s.store.store.files ++ s.sources.unannounced.map FileRow.ofFile) ∧
    (refusesBatches = true → ∃ err, s.finalize.outcome = .error err ∧ s.finalize.store = s.store) := by
  intro start s announced
  have coherent : Coherent s.graph s := (Coherent.begin start.store options).run events
  have stored : s.store = ⟨announced.foldl commit Store.empty, refusesFiles, refusesBatches⟩ :=
    store_run tidy_empty events
  have tidy : s.store.store.Tidy := store_kept (s := start) (P := fun store => store.store.Tidy)
    (fun tidy hf ok => (tidy.of_persistFile hf (Restricted.persistFile_eq_ok ok)).2) tidy_empty events
  have tables := store_commits Store.empty announced
  refine ⟨⟨announced.foldl putFile [], filter_putFiles (apart_announcedAmong paths), ?_⟩,
    length_announced_acceptedAmong start events, coherent.sources.sorted_unannounced,
    mem_unannounced_run start.store options events paths nodes,
    named_of_node start.store options events, ?_, ?_⟩
  · rw [stored]
    refine tables.trans ?_
    simp only [Store.empty, List.nil_append, Nat.zero_add]
  · intro writes
    rcases finalize_cases tidy.whole with ⟨refused, _⟩ | ⟨_, report, outcome, flushed⟩
    · rw [stored, writes] at refused
      cases refused
    · have files : s.store.store.files = announced.foldl putFile [] := by
        rw [stored]
        exact congrArg Store.files tables
      refine ⟨report, outcome, ?_⟩
      rw [flushed, Batch.store_writeAll]
      show merge FileRow.clash s.store.store.files (s.sources.unannounced.map FileRow.ofFile) = _
      unfold merge
      rw [files, fresh_files (unannounced_new paths nodes) (unannounced_distinct paths nodes)]
  · intro refuses
    rcases finalize_cases tidy.whole with ⟨_, failed⟩ | ⟨written, _⟩
    · exact failed
    · rw [stored, refuses] at written
      cases written

/-- A file announced twice, one with a status that stands for nothing, and a variable in a third: the first
row has the last status, and the batch brings the third. -/
theorem announced_rows_then_located_row :
    let place : Option Place := some ⟨some "/c.py", some ⟨some ⟨1, 0⟩, some ⟨1, 3⟩⟩⟩
    let events : List Event := [.file ⟨some "/a.py", some 1⟩, .file ⟨some "/b.py", some 9⟩,
      .variable ⟨some "x", some "x", place, none, some [], some []⟩, .file ⟨some "/a.py", some 2⟩]
    Apart .file (events.flatMap identities) ∧ Apart .node (events.flatMap identities) ∧
      ((begin (⟨Store.empty, false, false⟩ : Restricted) {}).run events).finalize.store.store.files =
        [⟨fileId "/a.py", "/a.py", "fully_parsed"⟩, ⟨fileId "/b.py", "/b.py", "none"⟩,
          ⟨fileId "/c.py", "/c.py", "none"⟩] := by
  intro place events
  have paths : Apart .file (events.flatMap identities) := by decide +kernel
  have nodes : Apart .node (events.flatMap identities) := by decide +kernel
  obtain ⟨_, _, _, _, _, written, _⟩ := file_records_follow_events {} false false events paths nodes
  obtain ⟨_, _, files⟩ := written rfl
  have known : ((begin (⟨Store.empty, false, false⟩ : Restricted) {}).run events).store.store.files =
        [⟨fileId "/a.py", "/a.py", "fully_parsed"⟩, ⟨fileId "/b.py", "/b.py", "none"⟩] ∧
      ((begin (⟨Store.empty, false, false⟩ : Restricted) {}).run events).sources.unannounced =
        [File.make "/c.py"] := by
    decide +kernel
  rw [known.1, known.2] at files
  exact ⟨paths, nodes, files⟩

end Session

end SymbolIndex
