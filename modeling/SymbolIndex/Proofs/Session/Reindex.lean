import SymbolIndex.Proofs.Session.Announced
import SymbolIndex.Proofs.Session.Lossless
import SymbolIndex.Proofs.Store.Again

/-!
# `Proofs.Session.Reindex` — the same events over the store that they have filled

What a session makes of an event does not depend on its store, but for file events, which the store takes
or refuses. So a second session that is fed the same events over what the first one left ends with the
same buffers (`SameIndex.run`), and its batch finds every record taken: `reindexed_events_add_imports`.

Files are committed once more while the second session runs, and their rows change back and forth with
their statuses. At the end each has the status that it was committed with last, which is the one that the
first session left. Each commit takes the number of a new build action, so the theorem has the limit of
these numbers as its hypothesis.

## Contents
- `SameIndex`: sessions that differ in store, counts and log at most; kept by each event and by a run.
- `flushed`, `store_run_again`, `covers_again`: the store before and after each batch.
- `reindexed_events_add_imports`.
-/

namespace SymbolIndex

open Store

namespace Session

variable {σ : Type} {s s' t t' : Session σ} {e : Event} {events : List Event}

/-! ## Sessions over different stores -/

/-- Two sessions know and have buffered the same; their stores, counts and logs may differ. -/
structure SameIndex (s t : Session σ) : Prop where
  options : t.options = s.options
  symbols : t.symbols = s.symbols
  sources : t.sources = s.sources
  ledger : t.ledger = s.ledger
  graph : t.graph = s.graph

namespace SameIndex

theorem symm (h : SameIndex s t) : SameIndex t s :=
  ⟨h.options.symm, h.symbols.symm, h.sources.symm, h.ledger.symm, h.graph.symm⟩

theorem finalGraph (h : SameIndex s t) : t.finalGraph = s.finalGraph := by
  unfold Session.finalGraph
  rw [h.graph, h.ledger]

theorem effect {paths : List String} {xs : List Sighting} {g : Graph} (h : SameIndex s t)
    (hs : Effect s s' paths xs g) (ht : Effect t t' paths xs g) : SameIndex s' t' where
  options := by rw [ht.options, hs.options, h.options]
  symbols := by rw [ht.symbols, hs.symbols, h.symbols]
  sources := by rw [ht.sources, hs.sources, h.sources]
  ledger := by rw [ht.ledger, hs.ledger, h.ledger]
  graph := by rw [ht.graph, hs.graph, h.graph]

theorem counted (h : SameIndex s t) (e : Event) : SameIndex (s.counted e) (t.counted e) :=
  h.effect (effect_counted s e) (effect_counted t e)

theorem enter (h : SameIndex s t) (d : Declaration) (u : SymbolTable) :
    SameIndex (s.enter d u) (t.enter d u) where
  options := h.options
  symbols := rfl
  sources := congrArg (·.register d.path) h.sources
  ledger := congrArg (·.register d.entity.id) h.ledger
  graph := congrArg (fun g => (g.addNode d.node).1) h.graph

/-- What is absorbed by one is absorbed by the other, and what one takes in the other does. -/
theorem addImport (h : SameIndex s t) (importer : FileId) (entry : ImportEntry) :
    SameIndex (addImport importer s entry) (addImport importer t entry) := by
  have found : ∀ path, t.sources.findAnnounced? path = s.sources.findAnnounced? path :=
    fun path => congrArg (·.findAnnounced? path) h.sources
  have nodes : ∀ id, t.graph.hasNode id = s.graph.hasNode id :=
    fun id => congrArg (·.hasNode id) h.graph
  rcases addImport_cases importer s entry with ⟨absorbs, quiet⟩ | ⟨path, imported, located, free, added⟩
  · rcases addImport_cases importer t entry with ⟨_, quiet'⟩ | ⟨path', imported', located', free', _⟩
    · exact h.effect quiet quiet'
    · have there := absorbs _ _ _ path' (found _ ▸ imported' ▸ rfl) located'
      rw [← nodes, free'] at there
      cases there
  · rcases addImport_cases importer t entry with ⟨absorbs', _⟩ | ⟨path', imported', located', _, added'⟩
    · have there := absorbs' _ _ _ path ((found _).symm ▸ imported ▸ rfl) located
      rw [nodes, free] at there
      cases there
    · cases path.symm.trans path'
      cases located.symm.trans located'
      cases imported.symm.trans ((found _).symm.trans imported')
      rw [h.symbols] at added'
      exact h.effect added added'

theorem addImports (h : SameIndex s t) (importer : FileId) (entries : List ImportEntry) :
    SameIndex (entries.foldl (Session.addImport importer) s)
      (entries.foldl (Session.addImport importer) t) := by
  induction entries generalizing s t with
  | nil => exact h
  | cons entry entries ih => exact ih (h.addImport importer entry)

variable [Recorder σ]

theorem declared (h : SameIndex s t) (declaring : e.kind.declares = true)
    (ok : accept e s = .ok () s') : ∃ t', accept e t = .ok () t' ∧ SameIndex s' t' := by
  obtain ⟨d, u, hd, free, rfl⟩ := (accept_declaring_eq_ok declaring).mp ok
  refine ⟨_, (accept_declaring_eq_ok declaring).mpr ⟨d, u, hd, h.symbols ▸ free, rfl⟩, ?_⟩
  have added := effect_addDeclared (t.enter d.declaration u) hd
  rw [show (t.enter d.declaration u).options = _ from h.options] at added
  exact (h.enter d.declaration u).effect (effect_addDeclared (s.enter d.declaration u) hd) added

/-- **An event that announces no file is taken in whatever the store is**, with the same effect. -/
theorem accepted (h : SameIndex s t) (noFile : announced? e = none) (ok : accept e s = .ok () s') :
    ∃ t', accept e t = .ok () t' ∧ SameIndex s' t' := by
  cases e with
  | file r =>
    obtain ⟨path, code, _, hp, hc, _, _⟩ := acceptFile_eq_ok.mp ok
    cases noFile.symm.trans (announced?_eq_some_iff.mpr ⟨r, path, code, rfl, hp, hc, rfl⟩)
  | classResolved r =>
    obtain ⟨c, owner, u, hc, resolved, rfl⟩ := acceptCompletion_eq_ok.mp ok
    refine ⟨_, acceptCompletion_eq_ok.mpr ⟨c, owner, u, hc, h.symbols ▸ resolved, rfl⟩, ?_⟩
    have moved : SameIndex { s with symbols := u } { t with symbols := u } :=
      ⟨h.options, rfl, h.sources, h.ledger, h.graph⟩
    have buffered : c.buffered t.options u owner.id = c.buffered s.options u owner.id := by rw [h.options]
    have completed : Effect { t with symbols := u } _ _ _ (c.buffered t.options u owner.id) :=
      effect_complete { t with symbols := u } owner c
    rw [buffered] at completed
    exact moved.effect (effect_complete _ owner c) completed
  | «import» r =>
    obtain ⟨path, importer, hp, modules, symbols, found, rfl⟩ := acceptImport_eq_ok.mp ok
    refine ⟨_, acceptImport_eq_ok.mpr ⟨path, importer, hp, modules, symbols, ?_, rfl⟩, ?_⟩
    · rw [h.sources]
      exact found
    · exact h.addImports importer.id (importEntries r)
  | «variable» r => exact h.declared rfl ok
  | function r => exact h.declared rfl ok
  | classPreprocessed r => exact h.declared rfl ok

theorem taken (h : SameIndex s t) (noFile : announced? e = none) (taken : s.refuses e = false) :
    t.refuses e = false ∧ SameIndex (s.ingest e) (t.ingest e) := by
  obtain ⟨s', ok⟩ := refuses_eq_false_iff.mp taken
  obtain ⟨t', ok', same⟩ := (h.counted e).accepted noFile ok
  rw [(ingest_of_accept ok).1, (ingest_of_accept ok').1]
  exact ⟨(ingest_of_accept ok').2, same⟩

theorem ingest (h : SameIndex s t) (noFile : announced? e = none) :
    SameIndex (s.ingest e) (t.ingest e) := by
  cases refused : s.refuses e with
  | false => exact (h.taken noFile refused).2
  | true =>
    cases refused' : t.refuses e with
    | false =>
      cases refused.symm.trans (h.symm.taken noFile refused').1
    | true => exact h.effect (effect_of_refuses refused) (effect_of_refuses refused')

end SameIndex

namespace SameIndex

variable {s t : Session Store}

/-- **Sessions over different stores stay alike**, as long as either store commits what is announced. -/
theorem run (h : SameIndex s t) (hs : Ready s.store events) (ht : Ready t.store events) :
    SameIndex (s.run events) (t.run events) := by
  induction events generalizing s t with
  | nil => exact h
  | cons e events ih =>
    refine ih ?_ hs.ingest ht.ingest
    cases announced : announced? e with
    | none => exact h.ingest announced
    | some f =>
      obtain ⟨_, _, ingested⟩ := hs.ingest_announced announced
      obtain ⟨_, _, ingested'⟩ := ht.ingest_announced announced
      rw [ingested, ingested']
      exact ⟨h.options, h.symbols, by rw [h.sources], h.ledger, h.graph⟩

end SameIndex

/-! ## The store after both sessions -/

section Again

variable {s : Session Store}

/-- What a batch leaves of the store of a session. -/
def flushed (s : Session Store) : Store :=
  (Batch.writeAll { store := s.store } s.sources.unannounced s.finalGraph).store

/-- **Files that are committed once more leave every row as it was.** The rows that the batch brought are
of files that were not announced. -/
theorem putFiles_flushed (ready : Ready s.store events) :
    (events.filterMap announced?).foldl putFile (flushed (s.run events)).files =
      (flushed (s.run events)).files := by
  have committed : (s.run events).store.files =
      (events.filterMap announced?).foldl putFile s.store.files := by
    rw [ready.store_run, store_commits]
  have rows : (flushed (s.run events)).files = merge FileRow.clash (s.run events).store.files
      ((s.run events).sources.unannounced.map FileRow.ofFile) := by
    unfold flushed
    rw [Batch.store_writeAll]
  rw [rows, committed]
  refine putFiles_of_settled ?_ ?_
  · intro f hf
    have there : (∃ r ∈ s.store.files, r.id = f.id) ∨ ∃ g ∈ events.filterMap announced?, g.id = f.id :=
      Or.inr ⟨f, hf, rfl⟩
    obtain ⟨r, hr, same⟩ := mem_ids_putFiles there
    exact ⟨r, mem_merge_of_mem hr, same⟩
  · intro r hr
    rcases mem_merge hr with old | new
    · have none : Settled [] s.store.files := fun _ _ => rfl
      exact settled_putFiles [] none r old
    · obtain ⟨f, hf, rfl⟩ := List.mem_map.mp new
      refine foldl_restated_of_absent fun g hg same => ?_
      have announced := ready.isAnnounced_run hg
      rw [← same] at announced
      cases (SourceTable.mem_unannounced_iff.mp hf).2.symm.trans announced

/-- The store of the second session before its batch: build actions have come, and nothing else. -/
theorem store_run_again {t : Session Store} (first : Ready s.store events)
    (second : Ready t.store events) (left : t.store = flushed (s.run events)) :
    (t.run events).store = { flushed (s.run events) with
      actions := (flushed (s.run events)).actions ++
        newActions (flushed (s.run events)).lastAction (events.filterMap announced?)
      sources := (flushed (s.run events)).sources ++
        newSources (flushed (s.run events)).lastAction (events.filterMap announced?)
      lastAction := (flushed (s.run events)).lastAction + (events.filterMap announced?).length } := by
  rw [second.store_run, left, store_commits, putFiles_flushed first]

/-- The batch over a store that only sessions have written goes through. -/
theorem finalize_of_tidy (tidy : s.store.Tidy) : s.finalize.store = flushed s ∧
    s.finalize.outcome = .ok ⟨s.stats, s.finalGraph.counts,
      (Batch.writeAll { store := s.store } s.sources.unannounced s.finalGraph).report⟩ := by
  obtain ⟨stored, reported, _⟩ := finalize_of_runBatch
    (runBatch_of_whole tidy.whole s.sources.unannounced s.finalGraph)
  exact ⟨stored, reported⟩

/-- A session leaves a store that is ready for the same events, if there are numbers left for both. -/
theorem ready_flushed (ready : Ready s.store events) (coherent : Coherent (s.run events).graph (s.run events))
    (room : (s.store.lastAction + 2 * (events.filterMap announced?).length : Nat) ≤ lastNumber) :
    Ready (flushed (s.run events)) events where
  tidy := (tidy_run ready.tidy events).writeAll fun f hf => coherent.sources.id_of_mem_unannounced hf
  room := by
    have last : (flushed (s.run events)).lastAction =
        s.store.lastAction + (events.filterMap announced?).length := by
      unfold flushed
      rw [Batch.store_writeAll]
      show (s.run events).store.lastAction = _
      rw [ready.store_run, store_commits]
    rw [last]
    omega

/-- The store of the second session before its batch has all that its batch offers, but for imports. -/
theorem covers_again {t : Session Store} (first : Ready s.store events) (second : Ready t.store events)
    (left : t.store = flushed (s.run events)) (same : SameIndex (s.run events) (t.run events)) :
    Covers (t.run events).store (t.run events).sources.unannounced (t.run events).finalGraph := by
  have taken := covers_writeAll { store := (s.run events).store } (s.run events).sources.unannounced
    (s.run events).finalGraph
  rw [store_run_again first second left, same.sources, same.finalGraph]
  exact { taken with }

end Again

/-- **Re-indexing the same events appends imports and nothing else.** Let a session take any events over a
store that sessions have left, and a second one take the same events over the store after it. Then both
batches succeed; the second session has buffered what the first one has, and leaves every table as it was,
but for a build action and its pair for each file event that it takes in, and for one more copy of every
buffered import. Its report counts the imports as written and everything else as conflicts.

Build actions are numbered by AUTOINCREMENT, which never gives a number twice and refuses a row after the
largest one, `2 ^ 63 - 1`. The hypothesis `numbers` says that the numbers left last for the files of both
sessions. No run comes near the limit: it would have to commit more than nine quintillion files. -/
theorem reindexed_events_add_imports (rounds : List Round) (options : Options) (events : List Event)
    (numbers : ((rounds.foldl (fun s r => r.store s) Store.empty).lastAction +
      2 * (events.filterMap announced?).length : Nat) ≤ lastNumber) :
    let first := (begin (rounds.foldl (fun s r => r.store s) Store.empty) options).run events
    let kept := first.finalize.store
    let second := (begin kept options).run events
    let accepted := (begin kept options).acceptedAmong events
    let files := accepted.filterMap announced?
    (∃ report, first.finalize.outcome = .ok report) ∧
    second.finalGraph = first.finalGraph ∧
    files.length = accepted.countP (fun e => e.kind = .file) ∧
    second.finalize.store = { kept with
      actions := kept.actions ++ newActions kept.lastAction files
      sources := kept.sources ++ newSources kept.lastAction files
      lastAction := kept.lastAction + files.length
      imports := kept.imports ++ first.graph.imports.map ImportRow.ofImport } ∧
    ∃ report, second.finalize.outcome = .ok report ∧ report.pending = second.finalGraph.counts ∧
      report.batch.written = first.graph.imports.length ∧
      report.batch.conflicts = report.pending.total - first.graph.imports.length := by
  have tidy : (rounds.foldl (fun s r => r.store s) Store.empty).Tidy := tidy_rounds rounds tidy_empty
  generalize rounds.foldl (fun s r => r.store s) Store.empty = before at numbers tidy ⊢
  intro first kept second accepted files
  -- the first session, and the store that it leaves
  have ready : Ready (begin before options).store events := by
    refine ⟨tidy, ?_⟩
    show ((before.lastAction + _ : Nat) : Int) ≤ _
    omega
  obtain ⟨keeps, outcome⟩ := finalize_of_tidy (s := first) (tidy_run ready.tidy events)
  have keeps : kept = flushed first := keeps
  -- the second session, which takes in the same
  have again : Ready (begin kept options).store events := by
    have coherent := (Coherent.begin before options).run events
    rw [keeps]
    exact ready_flushed ready coherent numbers
  obtain ⟨flush, outcome'⟩ := finalize_of_tidy (s := second) (tidy_run again.tidy events)
  have same : SameIndex first second := SameIndex.run ⟨rfl, rfl, rfl, rfl, rfl⟩ ready again
  have graph : second.finalGraph = first.finalGraph := same.finalGraph
  have announced : files = events.filterMap announced? := again.announced_acceptedAmong
  have stored : second.store = _ := store_run_again ready again keeps
  obtain ⟨written, reported⟩ := writeAll_of_covers (covers_again ready again keeps same)
  refine ⟨⟨_, outcome⟩, graph, length_announced_acceptedAmong _ _, ?_, _, outcome', rfl, ?_, ?_⟩
  · rw [flush, show flushed second = _ from written, stored, graph, announced, keeps]
    rfl
  · rw [reported, graph]
    rfl
  · rw [reported, graph]
    rfl

/-- A file that imports itself, with a variable in it. The second session leaves a second copy of the import
and a second build action; the variable and the two nodes are its three conflicts. -/
theorem reindexed_import_comes_again :
    let place : Option Place := some ⟨some "/a.py", some ⟨some ⟨1, 0⟩, some ⟨1, 1⟩⟩⟩
    let events : List Event := [
      .file ⟨some "/a.py", some 2⟩,
      .variable ⟨some "x", some "x", place, none, some [], some []⟩,
      .import ⟨some "/a.py", some [⟨some "/a.py", place⟩], some []⟩]
    let kept := ((begin Store.empty {}).run events).finalize.store
    let second := (begin kept {}).run events
    ((Store.empty.lastAction + 2 * (events.filterMap announced?).length : Nat) : Int) ≤ lastNumber ∧
      kept.imports.length = 1 ∧ second.finalize.store.imports = kept.imports ++ kept.imports ∧
      second.finalize.store.actions = kept.actions ++ [⟨2, ""⟩] ∧
      second.finalize.store.vars = kept.vars ∧
      ∃ report, second.finalize.outcome = .ok report ∧ report.batch = ⟨1, 3⟩ := by
  intro place events
  have numbers : ((Store.empty.lastAction + 2 * (events.filterMap announced?).length : Nat) : Int) ≤
      lastNumber := by decide +kernel
  have again := reindexed_events_add_imports [] {} events numbers
  rw [List.foldl_nil] at again
  have one : ((begin Store.empty {}).run events).graph.imports.length = 1 ∧
      ((begin Store.empty {}).run events).finalGraph.counts.total = 4 ∧
      ((begin Store.empty {}).run events).finalize.store.imports =
        ((begin Store.empty {}).run events).graph.imports.map ImportRow.ofImport ∧
      newActions ((begin Store.empty {}).run events).finalize.store.lastAction
        (((begin ((begin Store.empty {}).run events).finalize.store {}).acceptedAmong events).filterMap
          announced?) = [⟨2, ""⟩] := by
    decide +kernel
  -- the rest holds of any session with these figures
  generalize (begin Store.empty {}).run events = first at again one ⊢
  obtain ⟨imports, total, rows, actions⟩ := one
  obtain ⟨_, graph, _, stored, report, outcome, pending, written, conflicts⟩ := again
  intro kept second
  rw [actions] at stored
  have left : report.batch.conflicts = 3 := by rw [conflicts, pending, graph, total, imports]
  have taken : report.batch.written = 1 := written.trans imports
  refine ⟨numbers, ?_, ?_, ?_, ?_, report, outcome, ?_⟩
  · rw [rows, List.length_map, imports]
  · rw [stored, rows]
  · rw [stored]
  · rw [stored]
  · rw [← left, ← taken]

end Session

end SymbolIndex
